/-
Multiplying out: products are distributed over sums, whole powers of sums
are written as products, sums in an exponent as products of powers, and the
logarithm of a product as a sum where a factor is known to be positive.
-/
import Fluxion.Algebra.Rules

namespace Fluxion.Algebra.Expansion

/-- The products of one term of each factor. -/
def distribute : List Form → Result (List Form)
  | [] => .ok [Form.one]
  | u :: us => do
    let rest ← distribute us
    u.terms.flatMapM fun t => rest.mapM fun v => rules.mul t v

/-- A whole power of a sum, multiplied out. -/
def powerTerms (u : Form) : Nat → Result Form
  | 0 => .ok Form.one
  | n + 1 => do
    let v ← powerTerms u n
    rules.sum (← distribute [u, v])

/-- A product whose factors are multiplied out already. -/
def product (us : List Form) : Result Form :=
  if us.any Form.isSum then do rules.sum (← distribute us) else rules.product us

def power (b e : Form) : Result Form :=
  match b, e with
  | .sum _, e =>
    match e.int? with
    | some n => if 0 < n && n ≤ 64 then powerTerms b n.toNat else
        if n < 0 && -64 ≤ n then do rules.inv (← powerTerms b n.natAbs) else rules.power b e
    | none => exponents
  | _, _ => exponents
where
  exponents : Result Form :=
    match e with
    | .sum es => do rules.product (← es.mapM fun x => rules.power b x)
    | e => rules.power b e

/-- The logarithm with what is known to be positive taken apart. -/
def logarithm (u : Form) : Result Form :=
  match u with
  | .product us => do
    let apart := us.filter Form.isPositive
    let rest := us.filter fun v => !v.isPositive
    if apart.isEmpty then rules.call .ln u
    else
      let ls ← apart.mapM fun v => rules.call .ln v
      let last ← if rest.isEmpty then pure Form.zero
        else do rules.call .ln (← rules.product rest)
      rules.sum (ls ++ [last])
  | .power b e =>
    if b.isPositive && e.isReal then do rules.mul e (← rules.call .ln b) else rules.call .ln u
  | u => rules.call .ln u

def function (op : UnaryOp) (u : Form) : Result Form :=
  match op, u with
  | .exp, .sum us => do rules.product (← us.mapM fun v => rules.call .exp v)
  | .ln, u => logarithm u
  | op, u => rules.call op u

mutual

def expand : Form → Result Form
  | .sum us => do rules.sum (← expandAll us)
  | .product us => do product (← expandAll us)
  | .power b e => do power (← expand b) (← expand e)
  | .call op u => do function op (← expand u)
  | .foreign f us => do return .foreign f (← expandAll us)
  | .relate rel l r => do return .relate rel (← expand l) (← expand r)
  | .cases vs cs => do return .cases (← expandAll vs) cs
  | u => .ok u

def expandAll : List Form → Result (List Form)
  | [] => .ok []
  | u :: us => do
    let v ← expand u
    let vs ← expandAll us
    return v :: vs

end

end Fluxion.Algebra.Expansion

namespace Fluxion.Algebra

def Form.expand (u : Form) : Result Form := Expansion.expand u

end Fluxion.Algebra
