/-
Identities of functions: squares of sine and cosine add up to one,
quotients of them are tangents, products of them are functions of sums of
angles; powers of one base are joined, and so are logarithms of positive
numbers. Each identity is used in one direction; `shortest` keeps what
takes the fewest operations, the earlier of two that take as many.
-/
import Fluxion.Algebra.Complexity
import Fluxion.Algebra.Expansion
import Fluxion.Algebra.Ratio

namespace Fluxion.Algebra

namespace Form

/-- The form with the fewest operations; the first of several. -/
def shortest (first : Form) (others : List Form) : Result Form := do
  let n ← first.operations
  let best ← others.foldlM
    (fun (acc : Form × Nat) u => do
      let k ← u.operations
      return if k < acc.2 then (u, k) else acc)
    (first, n)
  return best.1

/-! ## Rebuilding every part -/

mutual

/-- Rebuilds bottom up: `step` is given each form after its parts, and
says what it becomes. -/
def rebuild (step : Form → Result Form) : Form → Result Form
  | .sum us => do step (← rules.sum (← rebuildAll step us))
  | .product us => do step (← rules.product (← rebuildAll step us))
  | .power b e => do step (← rules.power (← rebuild step b) (← rebuild step e))
  | .call op u => do step (← rules.call op (← rebuild step u))
  | .foreign f us => do return .foreign f (← rebuildAll step us)
  | .relate rel l r => do return .relate rel (← rebuild step l) (← rebuild step r)
  | .cases vs cs => do return .cases (← rebuildAll step vs) cs
  | u => step u

def rebuildAll (step : Form → Result Form) : List Form → Result (List Form)
  | [] => .ok []
  | u :: us => do
    let v ← rebuild step u
    let vs ← rebuildAll step us
    return v :: vs

end

end Form

namespace Identity

/-! ## Trigonometric identities -/

def isTrigonometric (u : Form) : Bool :=
  u.applications.any fun v => match v with
    | .call op _ => UnaryOp.trigonometric.contains op
    | _ => false

/-- A whole power above one of a function, as squares of it and at most
one more. -/
def squares (op : UnaryOp) (square : Form → Result Form) (u : Form) : Result Form :=
  match u with
  | .power (.call f a) e =>
    match e.int? with
    | some k =>
      if f == op && 2 ≤ k then do
        let s ← square a
        let p ← rules.power s (Form.int (k / 2))
        if k % 2 == 0 then return p else rules.mul p (.call f a)
      else .ok u
    | none => .ok u
  | u => .ok u

/-- One less the square of another function. -/
def oneLess (other : UnaryOp) (a : Form) : Result Form := do
  rules.sub Form.one (← rules.square (← rules.call other a))

/-- `(1 ± cos 2a) / 2`. -/
def halfAngle (sign : Int) (a : Form) : Result Form := do
  let c ← rules.call .cos (← rules.mul Form.two a)
  rules.sum [Form.half, ← rules.product [Form.ratio sign 2, c]]

def halfOf? (u : Form) : Option (Result Form) :=
  match u with
  | .product (.number (.exact c) :: rest) =>
    if c.num % 2 == 0 then
      some (rules.product (Form.rational (Rat.div c (Rat.ofInt 2)) :: rest))
    else none
  | _ => none

def doubleAngle (u : Form) : Result Form :=
  match u with
  | .call op a =>
    match op, halfOf? a with
    | .sin, some half => do
      let b ← half
      rules.product [Form.two, ← rules.call .sin b, ← rules.call .cos b]
    | .cos, some half => do
      let b ← half
      rules.sub (← rules.square (← rules.call .cos b)) (← rules.square (← rules.call .sin b))
    | _, _ => .ok u
  | u => .ok u

def bySineCosine (u : Form) : Result Form :=
  match u with
  | .call .tan a => do rules.div (← rules.call .sin a) (← rules.call .cos a)
  | .call .cot a => do rules.div (← rules.call .cos a) (← rules.call .sin a)
  | .call .sec a => do rules.inv (← rules.call .cos a)
  | .call .csc a => do rules.inv (← rules.call .sin a)
  | u => .ok u

def exponentOf (us : List Form) (v : Form) : Int :=
  us.foldl
    (fun n u =>
      match u with
      | .power b e => if b == v then n + (e.int?.getD 0) else n
      | u => if u == v then n + 1 else n)
    0

def withoutPowers (us : List Form) (v : Form) : List Form :=
  us.filter fun u => match u with
    | .power b e => !(b == v && e.int?.isSome)
    | u => !(u == v)

def smaller (a b : Int) : Int := if a < b then a else b

/-- Sine over cosine is the tangent, and tangent times cosine the sine. -/
def quotients (u : Form) : Result Form :=
  match u with
  | .product us => do
    let angles := Form.distinct (us.filterMap fun v => match v with
      | .call .cos a | .power (.call .cos a) _ => some a
      | _ => none)
    let vs ← angles.foldlM
      (fun vs a => do
        let s := exponentOf vs (.call .sin a)
        let c := exponentOf vs (.call .cos a)
        let t := exponentOf vs (.call .tan a)
        let k := if 0 < s && c < 0 then smaller s (-c)
          else if s < 0 && 0 < c then -(smaller (-s) c)
          else 0
        let j := if 0 < t && 0 < c then smaller t c else 0
        if k == 0 && j == 0 then return vs
        else
          let rest := [UnaryOp.sin, .cos, .tan].foldl
            (fun ws op => withoutPowers ws (.call op a)) vs
          let sin ← rules.power (.call .sin a) (Form.int (s - k + j))
          let cos ← rules.power (.call .cos a) (Form.int (c + k - j))
          let tan ← rules.power (.call .tan a) (Form.int (t + k - j))
          return rest ++ [sin, cos, tan])
      us
    rules.product vs
  | u => .ok u

/-- Two sines or cosines in a product as a sum of functions of the sum and
the difference of their angles. -/
def productToSum (us : List Form) : Result (Option Form) := do
  let trig := us.filter fun u => match u with | .call .sin _ | .call .cos _ => true | _ => false
  let combine (f : UnaryOp) (a b : Form) (p q : Int) : Result Form := do
    let x ← rules.call f (← rules.add a b)
    let y ← rules.call f (← rules.sub a b)
    rules.sum [← rules.product [Form.ratio p 2, x], ← rules.product [Form.ratio q 2, y]]
  match trig with
  | [u, v] =>
    let rest := us.filter fun w => !(w == u || w == v)
    let w? ← match u, v with
      | .call .sin a, .call .cos b => some <$> combine .sin a b 1 1
      | .call .cos a, .call .sin b => some <$> combine .sin b a 1 1
      | .call .sin a, .call .sin b => some <$> combine .cos a b (-1) 1
      | .call .cos a, .call .cos b => some <$> combine .cos a b 1 1
      | _, _ => pure none
    match w? with
    | some w => some <$> rules.product (rest ++ [w])
    | none => return none
  | _ => return none

def anglesAdded (u : Form) : Result Form :=
  match u with
  | .product us => do
    match ← productToSum us with
    | some v => return v
    | none => return u
  | u => .ok u

/-- The shortest of a form and what the identities make of it. -/
def trigonometric (u : Form) : Result Form :=
  if !(isTrigonometric u) then .ok u
  else do
    let plain ← u.expand
    let through (step : Form → Result Form) (v : Form) : Result Form := do
      (← Form.rebuild step v).expand
    let pythagorean (v : Form) : Result (List Form) := do
      return [← through (squares .sin (oneLess .cos)) v, ← through (squares .cos (oneLess .sin)) v]
    let direct ← pythagorean plain
    let halved ← through
      (fun v => do squares .sin (halfAngle (-1)) (← squares .cos (halfAngle 1) v)) plain
    let added ← through anglesAdded plain
    let rational ← (← Form.rebuild bySineCosine u).cancel
    let byQuotient ← pythagoreanQuotient rational
    let quotient ← Form.rebuild quotients u
    let single ← (← Form.rebuild doubleAngle u).cancel
    let bySingle ← pythagorean (← single.expand)
    let best ← u.shortest
      (quotient :: direct ++ [halved, added] ++ byQuotient ++ single :: bySingle)
    Form.rebuild quotients best
where
  pythagoreanQuotient (v : Form) : Result (List Form) := do
    let f ← v.fraction
    let variants (w : Form) : Result (List Form) := do
      let a ← (← Form.rebuild (squares .sin (oneLess .cos)) w).expand
      let b ← (← Form.rebuild (squares .cos (oneLess .sin)) w).expand
      return [w, a, b]
    let ns ← variants f.1
    let ds ← variants f.2
    let n ← f.1.shortest ns
    let d ← f.2.shortest ds
    return [v, ← rules.div n d]

/-! ## Powers and logarithms -/

def joinPowers (u : Form) : Result Form :=
  match u with
  | .product us => do
    let pairs := us.map (Form.baseExponent Form.negated)
    let joined := pairs.foldl
      (fun acc p => gather (fun old new => old ++ new) p.1 [p.2] acc) ([] : List (Form × List Form))
    let vs ← joined.mapM fun p => do
      match p.2 with
      | [e] => rules.power p.1 e
      | es => rules.power p.1 (← rules.sum es)
    rules.product vs
  | u => .ok u

def positiveLog? (u : Form) : Option (Rat × Form) :=
  match u with
  | .call .ln a => if a.isNumeric && a.isPositive then some (Rat.ofInt 1, a) else none
  | .product [.number (.exact c), .call .ln a] =>
    if a.isNumeric && a.isPositive then some (c, a) else none
  | _ => none

/-- Logarithms of positive numbers in a sum, joined into one. -/
def joinLogs (u : Form) : Result Form := do
  let found := u.terms.filterMap positiveLog?
  match u, found with
  | _, [] => return u
  | .call _ _, _ => return u
  | _, found =>
    let rest := u.terms.filter fun t => (positiveLog? t).isNone
    let arg ← rules.product (← found.mapM fun p => rules.power p.2 (Form.rational p.1))
    rules.sum (rest ++ [← rules.call .ln arg])

/-- A sum or a single term with its logarithms joined, everywhere. -/
def logarithmic (u : Form) : Result Form :=
  Form.rebuild (fun v => match v with
    | .sum _ | .product _ => joinLogs v
    | v => .ok v) u

end Identity

end Fluxion.Algebra
