/-
Evaluation with one variable bound. A tree that has an exact value there is
evaluated to a number that stands for it, and with no variable besides the
bound one it is always evaluated.
-/
import Fluxion.Proofs.Evaluation
import Fluxion.Proofs.Evaluation.Undefined

namespace Fluxion.Tree

open Exact (reading)

variable {α K : Type} [Field K] [LinearOrder K] [Elementary K] [Scalar α] [Exact α K]
variable {v : String} {t : Tree α} {x : K}

/-- The one variable is bound to a number that stands for `x`. -/
theorem reading_of_get? {a b : α} {z : String} (ha : reading a = some x)
    (h : Environment.get? [(v, a)] z = some b) : reading b = some x := by
  unfold Environment.get? at h
  rw [List.find?_singleton] at h
  split at h
  · cases h; exact ha
  · cases h

theorem reading_evaluateAt {a c : α} (ha : reading a = some x) (h : t.evaluateAt v a = .ok c)
    (hdef : t.Defined fun _ => x) : reading c = some (t.worth fun _ => x) := by
  obtain ⟨b, hb, hc⟩ := bind_eq_ok.mp h
  split at hc
  · cases hc
    exact reading_value (fun z d hd => reading_of_get? ha hd) hb hdef.exact_eq
  · cases hc

/-- A tree over `v` can be evaluated wherever it has a value. -/
theorem evaluateAt_of_defined {a : α} (ha : reading a = some x) (ht : t.Over (· = v))
    (hdef : t.Defined fun _ => x) :
    ∃ c, t.evaluateAt v a = .ok c ∧ reading c = some (t.worth fun _ => x) := by
  have hbound : t.BoundBy [(v, a)] := fun z hz => by
    rw [(over_iff.mp ht).2 z hz]
    exact ⟨a, by simp [Environment.get?]⟩
  obtain ⟨c, hc⟩ := hbound.value_eq_ok
  have hreading := reading_value (fun z d hd => reading_of_get? ha hd) hc hdef.exact_eq
  exact ⟨c, bind_eq_ok.mpr ⟨c, hc, if_pos (Exact.isFinite_of_reading hreading)⟩, hreading⟩

end Fluxion.Tree
