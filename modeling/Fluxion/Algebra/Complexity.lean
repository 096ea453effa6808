/-
How involved a form is: the number of its symbols, of its different
function applications, and of the operations it takes to write it. A
subtraction is one operation and so is a division; a number costs its sign
and its denominator.
-/
import Fluxion.Algebra.Conversion

namespace Fluxion.Algebra

namespace Form

def hasNegativeNumber : Form → Bool
  | .number a | .product (.number a :: _) => a.isNegative
  | _ => false

def unsignedProduct (us : List Form) : Form :=
  match us with
  | .number a :: rest =>
    if a == .minusOne then rawProduct rest
    else if a.isNegative then .product (.number a.neg :: rest)
    else .product us
  | us => .product us

/-- The operations in a form; `fuel` has to reach its depth. -/
def operationsWith : (fuel : Nat) → Form → Result Nat
  | 0, _ => .ok 0
  | fuel + 1, u =>
    let each (us : List Form) : Result Nat :=
      us.foldlM (fun n v => do return n + (← operationsWith fuel v)) 0
    match u with
    | .number (.exact q) => .ok ((if q.num < 0 then 1 else 0) + (if q.den == 1 then 0 else 1))
    | .number _ | .unsigned | .imaginary | .symbol _ | .truth _ => .ok 0
    | .constant c => .ok (if c == .e then 1 else 0)
    | .sum us => do
      let n ← each (us.map fun v => if v.hasNegativeNumber then v.negated else v)
      return n + (us.length - 1) + (if us.all hasNegativeNumber then 1 else 0)
    | .product us => do
      let sign := if u.hasNegativeNumber then 1 else 0
      let v := unsignedProduct us
      let f ← v.fraction
      if f.1.int?.isSome then return sign + 1 + (← operationsWith fuel f.2)
      else if !(f.2 == one) then
        let below ← if f.2.int?.isSome then pure 0 else operationsWith fuel f.2
        return sign + below + 1 + (← operationsWith fuel f.1)
      else
        match v with
        | .product vs => return sign + (vs.length - 1) + (← each vs)
        | v => return sign + (← operationsWith fuel v)
    | .power b e =>
      if e == minusOne then do return 1 + (← operationsWith fuel b)
      else do return 1 + (← each [b, e])
    | .call _ v => do return 1 + (← operationsWith fuel v)
    | .foreign _ us => do return 1 + (← each us)
    | .relate _ l r => each [l, r]
    | .cases vs cs => do return 1 + (← each (vs ++ cs))

/-- The operations in a form; a comparison by itself counts as one. -/
def operations (u : Form) : Result Nat := do
  let n ← operationsWith (8 * u.size + 16) u
  return match u with
    | .relate _ _ _ => n + 1
    | _ => n

mutual

/-- The function applications in a form, repeats kept. -/
def applications : Form → List Form
  | .sum us | .product us => allApplications us
  | .power b e => applications b ++ applications e
  | .call op u => .call op u :: applications u
  | .foreign f us => .foreign f us :: allApplications us
  | .relate _ l r => applications l ++ applications r
  | .cases vs cs => .cases vs cs :: (allApplications vs ++ allApplications cs)
  | _ => []

def allApplications : List Form → List Form
  | [] => []
  | u :: us => applications u ++ allApplications us

end

def complexity (u : Form) : Result Nat := do
  let n ← u.operations
  return u.names.eraseDups.length + (distinct u.applications).length + n

end Form

end Fluxion.Algebra
