/-
How far a sampled ratio is from the samples. The first ratio is within the
relative spread `rtol` of all others, and it is replaced by the nearest
integer if that is close. What counts as close there is measured against
one for small ratios, and zero is then close to every ratio that is not
above `rtol`: the constant found is zero although no ratio is. Above `rtol`
it is never zero, and all ratios are within three times the spread of it
(`ratioAt?_faithful_iff`).
-/
import Fluxion.Integral.Matching
import Fluxion.Proofs.Evaluation.Column
import Fluxion.Proofs.Exact.Rational
import Mathlib.Tactic.Linarith

namespace Fluxion.Sampling

open Exact (reading)

/-! ## Rounding to a near integer -/

section Snapped

variable {K : Type} [Field K] [LinearOrder K] [IsStrictOrderedRing K] {t x z r : K}

/-- What a ratio `x` is replaced by: the nearest integer, or itself where
that is not close. -/
inductive Snapped (t x : K) : K → Prop
  | integer {n : ℤ} (hn : |x - n| ≤ 1 / 2) (h : |x - n| ≤ t * max 1 |x|) : Snapped t x n
  | same {n : ℤ} (hn : |x - n| ≤ 1 / 2) (h : t * max 1 |x| < |x - n|) : Snapped t x x

theorem int_eq_zero {n : ℤ} (hx : |x| ≤ 1 / 3) (hn : |x - n| ≤ 1 / 2) : n = 0 := by
  have hlt : |(n : K)| < 1 := by
    have htri : |(n : K)| ≤ |x| + |x - n| := by
      have := abs_sub x (x - n)
      rwa [sub_sub_cancel] at this
    linarith
  have hlt' : |n| < 1 := by exact_mod_cast hlt
  exact Int.abs_lt_one_iff.mp hlt'

/-- A ratio that does not exceed the spread is replaced by zero. -/
theorem Snapped.eq_zero (h : Snapped t x z) (ht : t ≤ 1 / 3) (hx : |x| ≤ t) : z = 0 := by
  have hx' : |x| ≤ 1 / 3 := hx.trans ht
  have hmax : max 1 |x| = 1 := max_eq_left (by linarith)
  cases h with
  | integer hn h => rw [int_eq_zero hx' hn, Int.cast_zero]
  | same hn h =>
    rw [int_eq_zero hx' hn, hmax, Int.cast_zero, sub_zero] at h
    linarith

/-- Any other ratio moves to a number other than zero, and the way there is
short against that number. -/
theorem Snapped.abs_sub_le (h : Snapped t x z) (h₀ : 0 < t) (ht : t ≤ 1 / 3) (hx : t < |x|) :
    z ≠ 0 ∧ t * |x| + |x - z| ≤ 3 * t * |z| := by
  have hpos : 0 < |x| := h₀.trans hx
  cases h with
  | same hn h =>
    refine ⟨abs_pos.mp hpos, ?_⟩
    have hprod : 0 < t * |x| := mul_pos h₀ hpos
    rw [sub_self, abs_zero, mul_assoc]
    linarith
  | @integer n hn h =>
    have htri : |x| ≤ |(n : K)| + |x - n| := by
      have := abs_add_le (n : K) (x - n)
      rwa [add_sub_cancel] at this
    by_cases hone : 1 < |x|
    · -- The integer is at least two thirds of the ratio.
      rw [max_eq_right hone.le] at h
      have hthird : t * |x| ≤ 1 / 3 * |x| := mul_le_mul_of_nonneg_right ht hpos.le
      have hlow : 2 * |x| ≤ 3 * |(n : K)| := by linarith
      have hscaled : t * (2 * |x|) ≤ t * (3 * |(n : K)|) := mul_le_mul_of_nonneg_left hlow h₀.le
      refine ⟨abs_pos.mp (by linarith), ?_⟩
      calc t * |x| + |x - n| ≤ t * |x| + t * |x| := by linarith
        _ = t * (2 * |x|) := by ring
        _ ≤ t * (3 * |(n : K)|) := hscaled
        _ = 3 * t * |(n : K)| := by ring
    · rw [max_eq_left (not_lt.mp hone), mul_one] at h
      have hne : n ≠ 0 := by
        rintro rfl
        rw [Int.cast_zero, sub_zero] at h
        exact absurd h (not_le.mpr hx)
      have hlow : 1 ≤ |(n : K)| := by exact_mod_cast Int.one_le_abs hne
      have hratio : t * |x| ≤ t * 1 := mul_le_mul_of_nonneg_left (not_lt.mp hone) h₀.le
      have hscaled : 3 * t * 1 ≤ 3 * t * |(n : K)| :=
        mul_le_mul_of_nonneg_left hlow (by linarith)
      refine ⟨Int.cast_ne_zero.mpr hne, ?_⟩
      linarith

end Snapped

/-! ## The common ratio of two lists -/

section Lists

variable {α : Type} [Scalar α] {rtol k : α} {ps qs : List α}

/-- The tests that a common ratio has passed. -/
theorem commonRatio?_eq_some (h : commonRatio? rtol ps qs = some k) :
    ∃ k₀ rest, List.zipWith Scalar.div ps qs = k₀ :: rest ∧
      (∀ q ∈ qs, Scalar.eq q Scalar.zero = false) ∧
      (∀ r ∈ List.zipWith Scalar.div ps qs, Scalar.isFinite r = true ∧
        (Scalar.eq r k₀ = true ∨
          Scalar.le (Scalar.abs (Scalar.sub r k₀)) (Scalar.mul rtol (Scalar.abs k₀)) = true)) ∧
      k = if Scalar.le (Scalar.abs (Scalar.sub k₀ (Scalar.round k₀)))
            (Scalar.mul rtol (Scalar.max Scalar.one (Scalar.abs k₀))) then Scalar.round k₀
          else k₀ := by
  unfold commonRatio? at h
  split at h
  · cases h
  · next hden =>
    dsimp only at h
    split at h
    · cases h
    · next k₀ rest hratios =>
      split at h
      · cases h
      · next hfin =>
        split at h
        · cases h
        · next hclose =>
          rw [Bool.or_eq_true, not_or, Bool.not_eq_true', Bool.not_eq_false] at hfin
          rw [Bool.not_eq_true', Bool.not_eq_false] at hclose
          refine ⟨k₀, rest, hratios, ?_, fun r hr => ⟨?_, ?_⟩, ?_⟩
          · simpa using hden
          · exact List.all_eq_true.mp hfin.2 r hr
          · exact Bool.or_eq_true_iff.mp (List.all_eq_true.mp hclose r hr)
          · rw [← apply_ite some] at h
            exact (Option.some.inj h).symm

end Lists

/-! ## Exact ratios -/

section Exact

variable {α K : Type} [Field K] [LinearOrder K] [Elementary K] [Scalar α] [Exact α K]

/-- Both trees have values at the bindings, and `r` is the ratio of the two. -/
def RatioOf (candidate derivative : Tree α) (env : Environment α) (r : K) : Prop :=
  ∃ a b x y, candidate.evaluate env = .ok a ∧ derivative.evaluate env = .ok b ∧
    reading a = some x ∧ reading b = some y ∧ y ≠ 0 ∧ r = x / y

variable {n : ℕ} {env : Environment (Grid α)} {places : Fin n → Environment α}
variable {candidate derivative : Tree α} {rtol k : α}

/-- A ratio found at given points comes from the lists of values there. -/
theorem ratioAt?_eq_some (hn : 0 < n) (hc : candidate.ColumnBound env places)
    (hd : derivative.ColumnBound env places)
    (h : ratioAt? rtol n env candidate derivative = some k) :
    ∃ f g : Fin n → α, (∀ i, candidate.evaluate (places i) = .ok (f i)) ∧
      (∀ i, derivative.evaluate (places i) = .ok (g i)) ∧
      commonRatio? rtol (List.ofFn f) (List.ofFn g) = some k := by
  unfold ratioAt? at h
  rcases Tree.evaluateGrid_column hn hc with ⟨p, f, hp, hpcol, hf⟩ | ⟨hp, -⟩
  · rcases Tree.evaluateGrid_column hn hd with ⟨q, g, hq, hqcol, hg⟩ | ⟨hq, -⟩
    · simp only [hp, hq, spread, hpcol.broadcastTo, hqcol.broadcastTo] at h
      exact ⟨f, g, hf, hg, h⟩
    · simp only [hp, hq] at h
      cases h
  · simp only [hp] at h
    cases h

variable [IsStrictOrderedRing K] [Exact.Rounding α] {t : K}

theorem exists_snapped {k₀ : α} {x : K} (hrtol : reading rtol = some t)
    (hk₀ : reading k₀ = some x) :
    ∃ z, reading (if Scalar.le (Scalar.abs (Scalar.sub k₀ (Scalar.round k₀)))
          (Scalar.mul rtol (Scalar.max Scalar.one (Scalar.abs k₀))) then Scalar.round k₀
        else k₀) = some z ∧ Snapped t x z := by
  obtain ⟨m, hm, hhalf⟩ := Exact.Rounding.reading_round hk₀
  have hdistance : reading (Scalar.abs (Scalar.sub k₀ (Scalar.round k₀))) = some |x - m| :=
    Exact.reading_abs (Exact.reading_sub hk₀ hm)
  have hbound : reading (Scalar.mul rtol (Scalar.max Scalar.one (Scalar.abs k₀))) =
      some (t * max 1 |x|) :=
    Exact.reading_mul hrtol (Exact.reading_max Exact.reading_one (Exact.reading_abs hk₀))
  split
  · next hle => exact ⟨m, hm, .integer hhalf ((Exact.le_iff hdistance hbound).mp hle)⟩
  · next hle =>
    exact ⟨x, hk₀, .same hhalf (not_le.mp (mt (Exact.le_iff hdistance hbound).mpr hle))⟩

/-- The common ratio is what the first ratio snaps to, and no other ratio is
far from the first. -/
theorem commonRatio?_snapped {f g : Fin n → α} {x y : Fin n → K} (hn : 0 < n)
    (hrtol : reading rtol = some t) (h₀ : 0 < t) (hx : ∀ i, reading (f i) = some (x i))
    (hy : ∀ i, reading (g i) = some (y i))
    (h : commonRatio? rtol (List.ofFn f) (List.ofFn g) = some k) :
    (∀ i, y i ≠ 0) ∧
      (∃ z, reading k = some z ∧ Snapped t (x ⟨0, hn⟩ / y ⟨0, hn⟩) z) ∧
      ∀ i, |x i / y i - x ⟨0, hn⟩ / y ⟨0, hn⟩| ≤ t * |x ⟨0, hn⟩ / y ⟨0, hn⟩| := by
  obtain ⟨k₀, rest, hratios, hden, hall, rfl⟩ := commonRatio?_eq_some h
  have hzip : List.zipWith Scalar.div (List.ofFn f) (List.ofFn g) =
      List.ofFn fun i => Scalar.div (f i) (g i) := by
    apply List.ext_getElem <;> simp
  rw [hzip] at hratios hall
  have hne (i : Fin n) : y i ≠ 0 := by
    intro hzero
    have heq : Scalar.eq (g i) Scalar.zero = true :=
      (Exact.eq_iff (hy i) Exact.reading_zero).mpr hzero
    rw [hden (g i) ((List.mem_ofFn' _ _).mpr ⟨i, rfl⟩)] at heq
    cases heq
  have hratio (i : Fin n) : reading (Scalar.div (f i) (g i)) = some (x i / y i) :=
    Exact.reading_div (hx i) (hy i) (hne i)
  have hfirst : k₀ = Scalar.div (f ⟨0, hn⟩) (g ⟨0, hn⟩) := by
    have hhead := congrArg (fun l => l[0]?) hratios
    simpa [hn] using hhead.symm
  have hk₀ : reading k₀ = some (x ⟨0, hn⟩ / y ⟨0, hn⟩) := by rw [hfirst, hratio]
  refine ⟨hne, exists_snapped hrtol hk₀, ?_⟩
  intro i
  obtain ⟨-, heq | hle⟩ := hall _ ((List.mem_ofFn' _ _).mpr ⟨i, rfl⟩)
  · rw [(Exact.eq_iff (hratio i) hk₀).mp heq, sub_self, abs_zero]
    exact mul_nonneg h₀.le (abs_nonneg _)
  · exact (Exact.le_iff (Exact.reading_abs (Exact.reading_sub (hratio i) hk₀))
      (Exact.reading_mul hrtol (Exact.reading_abs hk₀))).mp hle

/-- **A sampled ratio is a constant other than zero that fits all samples,
exactly if the first ratio exceeds the spread.** -/
theorem ratioAt?_faithful_iff (hn : 0 < n) (hrtol : reading rtol = some t) (h₀ : 0 < t)
    (ht : t ≤ 1 / 3) (hc : candidate.ColumnBound env places)
    (hd : derivative.ColumnBound env places)
    (h : ratioAt? rtol n env candidate derivative = some k) :
    ∃ (r : Fin n → K) (z : K), (∀ i, RatioOf candidate derivative (places i) (r i)) ∧
      reading k = some z ∧
      ((z ≠ 0 ∧ ∀ i, |r i - z| ≤ 3 * t * |z|) ↔ t < |r ⟨0, hn⟩|) := by
  obtain ⟨f, g, hf, hg, hlists⟩ := ratioAt?_eq_some hn hc hd h
  choose x hx using fun i => Exact.reading_of_isFinite (Tree.evaluate_eq_ok.mp (hf i)).2
  choose y hy using fun i => Exact.reading_of_isFinite (Tree.evaluate_eq_ok.mp (hg i)).2
  obtain ⟨hne, ⟨z, hz, hsnap⟩, hclose⟩ := commonRatio?_snapped hn hrtol h₀ hx hy hlists
  refine ⟨fun i => x i / y i, z, ?_, hz, ?_, ?_⟩
  · exact fun i => ⟨f i, g i, x i, y i, hf i, hg i, hx i, hy i, hne i, rfl⟩
  · rintro ⟨hz, -⟩
    by_contra hsmall
    exact hz (hsnap.eq_zero ht (not_lt.mp hsmall))
  · intro hlarge
    obtain ⟨hz, hmoved⟩ := hsnap.abs_sub_le h₀ ht hlarge
    refine ⟨hz, fun i => ?_⟩
    have htriangle := abs_sub_le (x i / y i) (x ⟨0, hn⟩ / y ⟨0, hn⟩) z
    have hspread := hclose i
    dsimp only
    linarith

end Exact

/-! ## Two samples -/

def samples : Fin 2 → Rational
  | 0 => ⟨some (1 / 4)⟩
  | 1 => ⟨some (1 / 2)⟩

def sampled : Environment (Grid Rational) := [("x", ⟨[2], List.ofFn samples⟩)]

theorem columnBound_sampled {t : Tree Rational} (h : ∀ x ∈ t.names, x = "x") :
    t.ColumnBound sampled fun i => [("x", samples i)] := by
  intro x hx
  obtain rfl := h x hx
  exact ⟨_, samples, rfl, .full _, fun _ => rfl⟩

def double : Tree Rational := .binary .mul (.const ⟨some 2⟩) (.var "x")

def sevenfold : Tree Rational := .binary .mul (.const ⟨some 7⟩) (.var "x")

/-- `x / (-10 ^ 10)`. -/
def minute : Tree Rational := .binary .div (.var "x") (.const ⟨some (-10 ^ 10)⟩)

/-- The ratio of `7 * x` and `2 * x` is found. -/
theorem ratioAt?_sevenfold :
    ∃ (r : Fin 2 → ℚ) (z : ℚ), (∀ i, RatioOf sevenfold double [("x", samples i)] (r i)) ∧
      reading (⟨some (7 / 2)⟩ : Rational) = some z ∧
      ((z ≠ 0 ∧ ∀ i, |r i - z| ≤ 3 * (1 / 10 ^ 9) * |z|) ↔ 1 / 10 ^ 9 < |r ⟨0, two_pos⟩|) := by
  have hfound : ratioAt? ⟨some (1 / 10 ^ 9)⟩ 2 sampled sevenfold double = some ⟨some (7 / 2)⟩ := by
    decide +kernel
  exact ratioAt?_faithful_iff two_pos rfl (by norm_num) (by norm_num)
    (columnBound_sampled (by decide)) (columnBound_sampled (by decide)) hfound

/-- The ratio of `x / (-10 ^ 10)` and `2 * x` is taken for zero. -/
theorem ratioAt?_minute :
    ratioAt? ⟨some (1 / 10 ^ 9)⟩ 2 sampled minute double = some ⟨some 0⟩ ∧
      ∀ i, RatioOf minute double [("x", samples i)] (-1 / (2 * 10 ^ 10)) := by
  refine ⟨by decide +kernel, fun i => ?_⟩
  match i with
  | 0 =>
    have hp : minute.evaluate [("x", samples 0)] = .ok ⟨some (-1 / (4 * 10 ^ 10))⟩ := by
      with_unfolding_all rfl
    have hq : double.evaluate [("x", samples 0)] = .ok ⟨some (1 / 2)⟩ := by with_unfolding_all rfl
    exact ⟨_, _, _, _, hp, hq, rfl, rfl, by norm_num, by norm_num⟩
  | 1 =>
    have hp : minute.evaluate [("x", samples 1)] = .ok ⟨some (-1 / (2 * 10 ^ 10))⟩ := by
      with_unfolding_all rfl
    have hq : double.evaluate [("x", samples 1)] = .ok ⟨some 1⟩ := by with_unfolding_all rfl
    exact ⟨_, _, _, _, hp, hq, rfl, rfl, by norm_num, by norm_num⟩

end Fluxion.Sampling
