/-
Evaluation follows the exact value: where a tree has one, the kernels
arrive at a number that stands for it.
-/
import Fluxion.Evaluation
import Fluxion.Integral.Pattern
import Fluxion.Proofs.Exact.Worth
import Fluxion.Proofs.Simplification.Value

namespace Fluxion.Tree

open Exact (reading)

variable {α K : Type} [Field K] [LinearOrder K] [Elementary K] [Scalar α] [Exact α K]
variable {env : String → K}

theorem reading_indicator (b : Bool) :
    reading (Scalar.indicator b : α) = some (if b then (1 : K) else 0) := by
  cases b
  · exact Exact.reading_zero
  · exact Exact.reading_one

/-- By induction on the tree; a conditional evaluates the branch that the
exact value takes. -/
theorem reading_value {bound : Environment α} {t : Tree α} {a : α} {x : K}
    (hbound : ∀ y b, bound.get? y = some b → reading b = some (env y))
    (h : t.value bound = .ok a) (hx : t.exact env = some x) : reading a = some x := by
  induction t generalizing a x with
  | var y =>
    rw [value] at h
    split at h
    · next b hb =>
      cases h
      rw [hbound y _ hb, ← exact_var (α := α) y, hx]
    · cases h
  | const b => cases h; exact hx
  | binary op l r hl hr =>
    obtain ⟨b, hb, h⟩ := bind_eq_ok.mp h
    obtain ⟨c, hc, h⟩ := bind_eq_ok.mp h
    obtain ⟨y, z, hy, hz, hop⟩ := exact_binary_eq_some.mp hx
    cases h
    rw [Exact.reading_binary (hl hb hy) (hr hc hz), hop]
  | unary op u hu =>
    obtain ⟨b, hb, h⟩ := bind_eq_ok.mp h
    obtain ⟨y, hy, hop⟩ := exact_unary_eq_some.mp hx
    cases h
    rw [Exact.reading_unary (hu hb hy), hop]
  | relate rel l r hl hr =>
    obtain ⟨b, hb, h⟩ := bind_eq_ok.mp h
    obtain ⟨c, hc, h⟩ := bind_eq_ok.mp h
    obtain ⟨y, z, hy, hz, rfl⟩ := exact_relate_eq_some.mp hx
    cases h
    rw [reading_indicator, Exact.holds_eq (hl hb hy) (hr hc hz)]
  | branch c t f hc ht hf =>
    obtain ⟨b, hb, h⟩ := bind_eq_ok.mp h
    obtain ⟨y, hy, hz⟩ := exact_branch_eq_some.mp hx
    have hne := holds_ne_zero_iff (hc hb hy)
    split at hz <;> rename_i h₀
    · rw [if_neg (fun h => hne.mp h h₀)] at h; exact hf h hz
    · rw [if_pos (hne.mpr h₀)] at h; exact ht h hz

/-- The value that a strategy takes for a constant is its exact value. -/
theorem reading_constantValue {t : Tree α} {a : α} (h : t.constantValue? = some a)
    (ht : t.Defined env) : reading a = some (t.worth env) := by
  unfold constantValue? at h
  split at h
  · cases h; exact ht.exact_eq
  · split at h
    · next b hb =>
      cases h
      obtain ⟨c, hc, hb⟩ := bind_eq_ok.mp hb
      split at hb
      · cases hb
        exact reading_value (fun _ _ h => by cases h) hc ht.exact_eq
      · cases hb
    · cases h

end Fluxion.Tree
