/-
Calculus on forms: putting a form in the place of another, derivatives,
antiderivatives and limits. What cannot be found is kept as a form under
the name of the operation.
-/
import Fluxion.Algebra.Conversion
import Fluxion.Algebra.Expansion
import Fluxion.Algebra.Library
import Fluxion.Algebra.Ratio
import Fluxion.Definite

namespace Fluxion.Algebra.Form

def mentions (x : String) (u : Form) : Bool := u.names.contains x

/-! ## Substitution -/

mutual

/-- Puts a form in the place of every part that equals another one, and
combines again. -/
def replaced (u old new : Form) : Result Form :=
  if u == old then .ok new
  else
    match u with
    | .sum us => do rules.sum (← replacedAll us old new)
    | .product us => do rules.product (← replacedAll us old new)
    | .power b e => do rules.power (← replaced b old new) (← replaced e old new)
    | .call op v => do rules.call op (← replaced v old new)
    | .foreign f us => do Library.apply f (← replacedAll us old new)
    | .relate rel l r => do related rel (← replaced l old new) (← replaced r old new)
    | .cases vs cs => do
      chosen ((← replacedAll vs old new).zip (← replacedAll cs old new))
    | u => .ok u

def replacedAll (us : List Form) (old new : Form) : Result (List Form) :=
  match us with
  | [] => .ok []
  | u :: us => do
    let v ← replaced u old new
    let vs ← replacedAll us old new
    return v :: vs

end

/-! ## Derivatives -/

/-- The derivative of a function at `u`, before the chain rule. -/
def outerDerivative (op : UnaryOp) (u : Form) : Result Form := do
  let square (v : Form) : Result Form := rules.square v
  match op with
  | .neg => return minusOne
  | .sin => rules.call .cos u
  | .cos => rules.neg (← rules.call .sin u)
  | .tan => rules.add one (← square (← rules.call .tan u))
  | .sec => rules.mul (← rules.call .tan u) (← rules.call .sec u)
  | .csc => rules.neg (← rules.mul (← rules.call .cot u) (← rules.call .csc u))
  | .cot => rules.neg (← rules.add one (← square (← rules.call .cot u)))
  | .exp => rules.call .exp u
  | .ln => rules.inv u
  | .sqrt => rules.div half (← rules.sqrt u)
  | .asin => rules.inv (← rules.sqrt (← rules.sub one (← square u)))
  | .acos => rules.neg (← rules.inv (← rules.sqrt (← rules.sub one (← square u))))
  | .atan => rules.inv (← rules.add one (← square u))

mutual

def derivative (x : String) : Form → Result Form
  | .symbol y => .ok (if y == x then one else zero)
  | .sum us => do rules.sum (← derivatives x us)
  | .product us => do
    let ds ← derivatives x us
    let terms ← ds.zipIdx.mapM fun p => rules.product (us.set p.2 p.1)
    rules.sum terms
  | .power b e => do
    let b' ← derivative x b
    let e' ← derivative x e
    let below ← rules.power b (← rules.sub e one)
    let first ← rules.product [e, below, b']
    if e' == zero then return first
    else
      let second ← rules.product [← rules.power b e, ← rules.call .ln b, e']
      if b' == zero then return second else rules.add first second
  | .call op u => do
    let u' ← derivative x u
    if u' == zero then return zero else rules.mul (← outerDerivative op u) u'
  | .foreign f us =>
    .ok (if mentions x (.foreign f us) then .foreign "Derivative" [.foreign f us, .symbol x]
      else zero)
  | .cases vs cs => do return .cases (← derivatives x vs) cs
  | .relate _ _ _ | .truth _ => .error .noAlgebra
  | _ => .ok zero

def derivatives (x : String) : List Form → Result (List Form)
  | [] => .ok []
  | u :: us => do
    let v ← derivative x u
    let vs ← derivatives x us
    return v :: vs

end

def derivativeTimes (x : String) : Nat → Form → Result Form
  | 0, u => .ok u
  | n + 1, u => do derivativeTimes x n (← derivative x u)

/-! ## Antiderivatives -/

def powerIntegral (x : String) (e : Form) : Result Form := do
  if e == minusOne then rules.call .ln (.symbol x)
  else
    let n ← rules.add e one
    rules.div (← rules.power (.symbol x) n) n

def treeIntegral? (x : String) (u : Form) : Option Form :=
  match (do (← (← u.toTree).antiderivative x).toForm : Result Form) with
  | .ok v => some v
  | .error _ => none

/-- The antiderivative of a term: what is free of the symbol stands in
front. -/
def termIntegral? (x : String) (u : Form) : Result (Option Form) := do
  let front := u.factors.filter fun f => !(f.mentions x)
  let rest := u.factors.filter fun f => f.mentions x
  let inFront (v : Form) : Result (Option Form) := some <$> rules.product (front ++ [v])
  match rest with
  | [] => inFront (.symbol x)
  | [.symbol _] => inFront (← powerIntegral x one)
  | [.power (.symbol y) e] =>
    if y == x && !(e.mentions x) then inFront (← powerIntegral x e) else byTree rest inFront
  | rest => byTree rest inFront
where
  byTree (rest : List Form) (inFront : Form → Result (Option Form)) : Result (Option Form) := do
    match treeIntegral? x (← rules.product rest) with
    | some v => inFront v
    | none => return none

def antiderivative (x : String) (u : Form) : Result Form := do
  let kept := Form.foreign "Integral" [u, .symbol x]
  let v ← u.expand
  let parts ← v.terms.mapM (termIntegral? x)
  if parts.all Option.isSome then rules.sum (parts.filterMap id)
  else
    match treeIntegral? x u with
    | some w => return w
    | none => return kept

/-- Whether an operation was left as it stands. -/
def isOpen (u : Form) : Bool :=
  match u with
  | .foreign f _ => ["Integral", "Derivative", "Limit", "Sum", "Product"].contains f
  | _ => false

/-! ## Limits -/

mutual

/-- Whether no infinity and nothing undefined occurs. -/
def isProper : Form → Bool
  | .number a => a.isFinite
  | .unsigned => false
  | .sum us | .product us | .foreign _ us => areProper us
  | .power b e => isProper b && isProper e
  | .call _ u => isProper u
  | _ => true

def areProper : List Form → Bool
  | [] => true
  | u :: us => isProper u && areProper us

end

/-- The sign of a form close to a point, above or below it. -/
def signNear (x : String) (a : Form) (fromAbove : Bool) (u : Form) : Option Bool :=
  let h := 1e-5
  let p : Option Float :=
    match a with
    | .number (.infinite negative) => some (if negative then -1e5 else 1e5)
    | a => a.realValue?.map fun v => if fromAbove then v + h else v - h
  match p with
  | none => none
  | some p =>
    match u.value? fun y => if y == x then some (.ofReal p) else none with
    | some z => if z.isReal && z.isFinite then some (decide (z.re < 0.0)) else none
    | none => none

/-- The limit at a point: the value where it is proper, else that of the
quotient of derivatives where numerator and denominator vanish together or
grow together; `fuel` bounds the number of such steps. -/
def limitWith (x : String) (a : Form) (fromAbove : Bool) : (fuel : Nat) → Form → Result Form
  | 0, u => .ok (.foreign "Limit" [u, .symbol x, a])
  | fuel + 1, u => do
    let kept := Form.foreign "Limit" [u, .symbol x, a]
    let infinite : Form :=
      match signNear x a fromAbove u with
      | some negative => .number (.infinite negative)
      | none => kept
    let direct ← u.replaced (.symbol x) a
    if direct.isProper then return direct
    else
      match u, direct with
      | _, .number (.infinite n) => return .number (.infinite n)
      | .power b e, _ =>
        if e.mentions x && b.mentions x then
          let l ← limitWith x a fromAbove fuel (← rules.mul e (← rules.call .ln b))
          if l.isOpen then return kept else rules.call .exp l
        else quotient fuel kept infinite u
      | _, _ => quotient fuel kept infinite u
where
  quotient (fuel : Nat) (kept infinite u : Form) : Result Form := do
    let f ← u.fraction
    if f.2 == one then
      match u with
      | .sum _ =>
        let v ← u.cancel
        if v == u then return kept else limitWith x a fromAbove fuel v
      | _ => return kept
    else
      let n ← f.1.replaced (.symbol x) a
      let d ← f.2.replaced (.symbol x) a
      let both := (n.isZero && d.isZero) || (n.isInfinite && d.isInfinite) ||
        n == undefined || d == undefined
      if both then
        let q ← rules.div (← derivative x f.1) (← derivative x f.2)
        limitWith x a fromAbove fuel (← q.cancel)
      else if d.isZero then return infinite
      else if n.isInfinite then return infinite
      else return kept

def limit (u : Form) (x : String) (a : Form) (fromAbove : Bool) : Result Form :=
  limitWith x a fromAbove 8 u

def definite (u : Form) (x : String) (a b : Form) : Result Form := do
  let kept := Form.foreign "Integral" [u, .symbol x, a, b]
  let v ← antiderivative x u
  if v.isOpen then return kept
  else
    let upper ← v.limit x b false
    let lower ← v.limit x a true
    if upper.isOpen || lower.isOpen then return kept else rules.sub upper lower

end Fluxion.Algebra.Form
