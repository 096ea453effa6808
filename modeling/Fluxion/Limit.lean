/-
Numeric limits. A one-sided limit is the value at the closest sample point
that has one, the steps going from coarse to fine; a two-sided limit is
the mean of the two sides when they agree within 10^-4. Where nothing can
be established the answer is not a number.
-/
import Fluxion.Evaluation

namespace Fluxion

inductive Direction where
  | left
  | right
  | both

namespace Direction

def ofText? (s : String) : Option Direction :=
  if s == "left" then some .left
  else if s == "right" then some .right
  else if s == "both" then some .both
  else none

end Direction

namespace Limit

variable {α : Type} [Scalar α]

/-- Distances from the point, coarse to fine. -/
def steps : List α := [2, 3, 4, 5, 6, 7, 8].map fun k => Scalar.decimal 1 (-(k : Int))

/-- Two sides closer than this agree. -/
def agreement : α := Scalar.decimal 1 (-4)

def undetermined : α := Scalar.div Scalar.zero Scalar.zero

/-- The value at the finest step that has one. -/
def oneSided? (t : Tree α) (v : String) (point sign : α) : Option α :=
  (steps.filterMap fun h =>
    (t.evaluateAt v (Scalar.add point (Scalar.mul sign h))).toOption).getLast?

/-- The mean of two sides that agree. -/
def joined? (right left : Option α) : Option α := do
  let r ← right
  let l ← left
  if Scalar.ge (Scalar.abs (Scalar.sub r l)) agreement then none
  else some (Scalar.div (Scalar.add r l) Scalar.two)

def limit? (t : Tree α) (v : String) (point : α) : Direction → Option α
  | .right => oneSided? t v point Scalar.one
  | .left => oneSided? t v point (Scalar.neg Scalar.one)
  | .both =>
    joined? (oneSided? t v point Scalar.one) (oneSided? t v point (Scalar.neg Scalar.one))

/-- The limit, or no number. -/
def limit (t : Tree α) (v : String) (point : α) (d : Direction) : α :=
  (limit? t v point d).getD undetermined

end Limit

end Fluxion
