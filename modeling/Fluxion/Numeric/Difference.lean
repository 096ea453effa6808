/-
The derivative at a point by the five-point central difference.
-/
import Fluxion.Evaluation

namespace Fluxion.Numeric

variable {α : Type} [Scalar α]

/-- `(-f(x+2h) + 8 f(x+h) - 8 f(x-h) + f(x-2h)) / 12h`. -/
def fivePoint (t : Tree α) (v : String) (h x : α) : Except (Fault α) α := do
  let h2 := Scalar.mul Scalar.two h
  let eight : α := Scalar.ofNat 8
  let a ← t.evaluateAt v (Scalar.add x h2)
  let b ← t.evaluateAt v (Scalar.add x h)
  let c ← t.evaluateAt v (Scalar.sub x h)
  let d ← t.evaluateAt v (Scalar.sub x h2)
  let sum := Scalar.add (Scalar.sub (Scalar.add (Scalar.neg a) (Scalar.mul eight b))
    (Scalar.mul eight c)) d
  return Scalar.div sum (Scalar.mul (Scalar.ofNat 12) h)

end Fluxion.Numeric
