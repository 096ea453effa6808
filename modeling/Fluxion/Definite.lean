/-
Definite integrals by an antiderivative: `F b - F a`. Nothing is checked
between the bounds; the difference is what it is even where the integrand
has no value inside the interval.
-/
import Fluxion.Integral.Pipeline

namespace Fluxion.Tree

variable {α : Type} [Scalar α] [Numeral α]

def antiderivative (v : String) (t : Tree α) : Except (Fault α) (Tree α) :=
  Pipeline.standard.integrate t v

/-- `F b - F a`, the upper bound being evaluated first. -/
def increase (v : String) (a b : α) (F : Tree α) : Except (Fault α) α := do
  let upper ← F.evaluateAt v b
  let lower ← F.evaluateAt v a
  return Scalar.sub upper lower

def definiteIntegral (v : String) (a b : α) (t : Tree α) : Except (Fault α) α := do
  let F ← t.antiderivative v
  F.increase v a b

end Fluxion.Tree
