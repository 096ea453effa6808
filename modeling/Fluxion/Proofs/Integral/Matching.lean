/-
Matching finds true ratios. When the texts of the simplified candidate and
of the simplified derivative agree, or agree once a literal coefficient is
taken off each, the candidate has the found multiple of the derivative's
value wherever both have a value.
-/
import Fluxion.Integral.Matching
import Fluxion.Proofs.Exact.Spelling
import Fluxion.Proofs.Exact.Worth
import Fluxion.Proofs.Simplification.Value
import Fluxion.Proofs.Tree.Compact

namespace Fluxion

open Exact (reading)
open Text

namespace Tree

variable {α K : Type} [Field K] [LinearOrder K] [Elementary K] [Scalar α] [Exact α K]
variable {env : String → K} {P : String → Prop}

/-! ## Coefficients -/

/-- The value of what is left after peeling; one when nothing is. -/
def remainder (env : String → K) : Option (Tree α) → Option K
  | none => some 1
  | some t => t.exact env

/-- A tree is its coefficient times its remainder. -/
theorem exact_peel {t : Tree α} {x : K} (h : t.exact env = some x) :
    ∃ k y, reading t.peel.1 = some k ∧ remainder env t.peel.2 = some y ∧ x = k * y := by
  fun_induction peel t generalizing x with
  | case1 a => exact ⟨x, 1, h, rfl, (mul_one x).symm⟩
  | case2 u _ =>
    next ih =>
    obtain ⟨z, hz, rfl⟩ := exact_neg_eq_some.mp h
    obtain ⟨k, y, hk, hy, rfl⟩ := ih hz
    exact ⟨-k, y, Exact.reading_neg hk, hy, (neg_mul k y).symm⟩
  | case3 a r =>
    obtain ⟨k, y, hk, hy, rfl⟩ := exact_mul_eq_some.mp h
    exact ⟨k, y, hk, hy, rfl⟩
  | case4 l a =>
    obtain ⟨y, k, hy, hk, rfl⟩ := exact_mul_eq_some.mp h
    exact ⟨k, y, hk, hy, mul_comm y k⟩
  | case5 t => exact ⟨1, x, Exact.reading_one, h, (one_mul x).symm⟩

omit [Field K] [LinearOrder K] [Elementary K] [Exact α K] in
theorem over_peel {t u : Tree α} (h : t.Over P) (hu : t.peel.2 = some u) : u.Over P := by
  fun_induction peel t with
  | case1 a => cases hu
  | case2 w _ => next ih => exact ih h hu
  | case3 a r => cases hu; exact h.2
  | case4 l a => cases hu; exact h.1
  | case5 t => cases hu; exact h

omit [Field K] [LinearOrder K] [Elementary K] [Exact α K] in
/-- A coefficient is a literal of the tree up to sign, or one. -/
theorem isFinite_peel [Steady α] {t : Tree α} (h : t.Over P) : Scalar.isFinite t.peel.1 = true := by
  fun_induction peel t with
  | case1 a => exact h
  | case2 w _ => next ih => exact Steady.isFinite_neg (ih h)
  | case3 a r => exact h.1
  | case4 l a => exact h.2
  | case5 t => exact Steady.isFinite_one

end Tree

namespace Matching

variable {α K : Type} [Field K] [LinearOrder K] [Elementary K] [Scalar α] [Exact α K]
variable [Numeral α] [Spelled α] {env : String → K} {v : String}

theorem remainder_eq (hv : IsIdentifier v) {a b : Option (Tree α)}
    (ha : ∀ t, a = some t → t.Over IsIdentifier) (hb : ∀ t, b = some t → t.Over IsIdentifier)
    (h : sameRemainder v a b = true) :
    Tree.remainder env a = (Tree.remainder env b : Option K) := by
  cases a <;> cases b <;> simp only [sameRemainder, Bool.false_eq_true, beq_iff_eq] at h
  · rfl
  · exact Tree.exact_eq_of_compact hv (ha _ rfl) (hb _ rfl) h env

omit [Field K] [LinearOrder K] [Elementary K] [Exact α K] [Spelled α] in
/-- Without sampling a ratio comes from equal texts: of the whole, or of
what is left once the coefficients are taken off. -/
theorem ratio_cases {m : Matching α} (hm : m.sampled = false) {candidate inner : Tree α} {k : α}
    (hk : m.ratio? candidate inner v = some k) :
    (candidate.simplify.compact v = (inner.derivative v).simplify.compact v ∧ k = Scalar.one) ∨
      (Scalar.eq (inner.derivative v).simplify.peel.1 Scalar.zero = false ∧
        sameRemainder v candidate.simplify.peel.2 (inner.derivative v).simplify.peel.2 = true ∧
        k = Scalar.div candidate.simplify.peel.1 (inner.derivative v).simplify.peel.1) := by
  simp only [ratio?, hm, Bool.false_eq_true, if_false] at hk
  split at hk
  · next h =>
    cases hk
    exact .inl ⟨beq_iff_eq.mp h, rfl⟩
  split at hk
  · next h =>
    cases hk
    rw [Bool.and_eq_true, Bool.not_eq_true'] at h
    exact .inr ⟨h.1, h.2, rfl⟩
  · cases hk

omit [Numeral α] [Spelled α] in
theorem ne_zero_of_eq {a : α} {x : K} (h : Scalar.eq a Scalar.zero = false)
    (hx : reading a = some x) : x ≠ 0 := fun h₀ => by
  rw [(Exact.eq_iff hx Exact.reading_zero).mpr h₀] at h
  cases h

theorem exact_of_ratio {m : Matching α} (hm : m.sampled = false) {candidate inner : Tree α}
    (hc : candidate.Over IsIdentifier) (hi : inner.Over IsIdentifier) (hv : IsIdentifier v) {k : α}
    (hk : m.ratio? candidate inner v = some k) {x y : K} (hx : candidate.exact env = some x)
    (hy : (inner.derivative v).exact env = some y) :
    ∃ z, reading k = some z ∧ x = z * y := by
  have hx' := Tree.exact_simplify_eq hx
  have hy' := Tree.exact_simplify_eq hy
  have hoc := Tree.over_simplify hc
  have hod := Tree.over_simplify (Tree.over_derivative (v := v) hi)
  rcases ratio_cases hm hk with ⟨h, rfl⟩ | ⟨h₀, h, rfl⟩
  · have heq := Tree.exact_eq_of_compact hv hoc hod h env
    rw [hx', hy'] at heq
    exact ⟨1, Exact.reading_one, by rw [one_mul, Option.some.inj heq]⟩
  · obtain ⟨p, a, hp, ha, rfl⟩ := Tree.exact_peel hx'
    obtain ⟨q, b, hq, hb, rfl⟩ := Tree.exact_peel hy'
    have hq₀ := ne_zero_of_eq h₀ hq
    have hab : Tree.remainder env candidate.simplify.peel.2 =
        Tree.remainder env (inner.derivative v).simplify.peel.2 :=
      remainder_eq hv (fun _ ht => Tree.over_peel hoc ht) (fun _ ht => Tree.over_peel hod ht) h
    rw [ha, hb] at hab
    obtain rfl := Option.some.inj hab
    exact ⟨p / q, Exact.reading_div hp hq hq₀, by rw [← mul_assoc, div_mul_cancel₀ _ hq₀]⟩

omit [Spelled α] in
/-- A ratio of trees with finite literals is a finite number, whether or not
there is a point where both sides have a value. -/
theorem reading_ratio {m : Matching α} (hm : m.sampled = false) {candidate inner : Tree α}
    (hc : candidate.Over IsIdentifier) (hi : inner.Over IsIdentifier) {k : α}
    (hk : m.ratio? candidate inner v = some k) : ∃ z : K, reading k = some z := by
  rcases ratio_cases hm hk with ⟨-, rfl⟩ | ⟨h₀, -, rfl⟩
  · exact ⟨1, Exact.reading_one⟩
  · obtain ⟨p, hp⟩ := Exact.reading_of_isFinite (K := K)
      (Tree.isFinite_peel (Tree.over_simplify hc))
    obtain ⟨q, hq⟩ := Exact.reading_of_isFinite (K := K)
      (Tree.isFinite_peel (Tree.over_simplify (Tree.over_derivative (v := v) hi)))
    exact ⟨p / q, Exact.reading_div hp hq (ne_zero_of_eq h₀ hq)⟩

/-- **Ratio matching is sound** as long as nothing is sampled: the ratio is
one number, and wherever the candidate and the derivative both have a
value, the candidate is that many times the derivative. -/
theorem exact_eq_mul_derivative (m : Matching α) (hm : m.sampled = false) (candidate inner : Tree α)
    (hc : candidate.AllFinite) (hcn : ∀ x ∈ candidate.names, IsIdentifier x)
    (hi : inner.AllFinite) (hin : ∀ x ∈ inner.names, IsIdentifier x) (v : String)
    (hv : IsIdentifier v) (k : α) (hk : m.ratio? candidate inner v = some k) :
    ∃ z : K, reading k = some z ∧ ∀ env x y, candidate.exact env = some x →
      (inner.derivative v).exact env = some y → x = z * y := by
  have hoc := Tree.over_iff.mpr ⟨hc, hcn⟩
  have hoi := Tree.over_iff.mpr ⟨hi, hin⟩
  obtain ⟨z, hz⟩ := reading_ratio (K := K) hm hoc hoi hk
  refine ⟨z, hz, fun env x y hx hy => ?_⟩
  obtain ⟨z', hz', hxy⟩ := exact_of_ratio hm hoc hoi hv hk hx hy
  rw [hxy, Option.some.inj (hz'.symm.trans hz)]

/-- The candidate `-(3 * x)` against the derivative of `x ^ 2`: minus three
halves, with a sign and a coefficient taken off on one side. -/
theorem exact_eq_mul_derivative_square :
    ∃ k, (standard : Matching Closed).ratio? (.unary .neg (.binary .mul (.const (.integer 3))
        (.var "x"))) (.binary .pow (.var "x") (.const (.integer 2))) "x" = some k ∧
      reading k = some (-3 / 2 : ℝ) ∧
      ∀ (env : String → ℝ) (x y : ℝ),
        (Tree.unary .neg (.binary .mul (.const (Closed.integer 3)) (.var "x"))).exact env = some x →
        ((Tree.binary .pow (.var "x") (.const (Closed.integer 2))).derivative "x").exact env =
          some y → x = -3 / 2 * y := by
  have hk : (standard : Matching Closed).ratio? (.unary .neg (.binary .mul (.const (.integer 3))
      (.var "x"))) (.binary .pow (.var "x") (.const (.integer 2))) "x" =
        some (Scalar.div (.integer (-3)) (.integer 2)) := rfl
  have hread : reading (Scalar.div (Closed.integer (-3)) (.integer 2)) = some (-3 / 2 : ℝ) :=
    (Exact.reading_div (Closed.reading_integer (-3)) (Closed.reading_integer 2)
      (by norm_num)).trans (by norm_num)
  obtain ⟨z, hz, h⟩ := exact_eq_mul_derivative (standard : Matching Closed) rfl
    (.unary .neg (.binary .mul (.const (.integer 3)) (.var "x")))
    (.binary .pow (.var "x") (.const (.integer 2)))
    ⟨rfl, trivial⟩ (by decide) ⟨trivial, rfl⟩ (by decide) "x" (by decide) _ hk
  obtain rfl := Option.some.inj (hz.symm.trans hread)
  exact ⟨_, hk, hread, h⟩

end Matching

end Fluxion
