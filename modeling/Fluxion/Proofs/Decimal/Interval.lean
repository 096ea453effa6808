/-
The shortest decimal of a double lies among the numbers that round to that
double (`mem_shortest`), and these belong to no other double
(`eq_of_mem`). So the decimal tells doubles apart.

An interval is compared with numbers over `ℚ`. Where two doubles are
neighbours their intervals meet in one point; the significands are then not
both even, so the point belongs to one of them only. That some grid is hit
is due to the seventeenth: its step is less than the interval is wide,
provided the leading digit was not placed too high (`ten_zpow_leading_le`).
-/
import Fluxion.Decimal.Shortest
import Fluxion.Proofs.Double.Parts

namespace Fluxion.Decimal

open Double (Canonical log2_le_of_lt)

def value (d : Decimal) : ℚ := d.digits * 10 ^ d.exponent

/-! ## The interval of a double -/

namespace Interval

def Mem (i : Interval) (y : ℚ) : Prop :=
  if i.closed then i.low ≤ y * i.den ∧ y * i.den ≤ i.high
  else i.low < y * i.den ∧ y * i.den < i.high

/-- Membership compared in naturals, both sides times `f`. -/
theorem mem_iff_of_scaled {i : Interval} {y : ℚ} {f c : ℕ} (hf : 0 < f) (h : y * i.den * f = c) :
    i.Mem y ↔ if i.closed then i.low * f ≤ c ∧ c ≤ i.high * f
      else i.low * f < c ∧ c < i.high * f := by
  have hf : (0 : ℚ) < f := Nat.cast_pos.mpr hf
  have le_iff (n : ℕ) : (n : ℚ) ≤ y * i.den ↔ n * f ≤ c := by
    rw [← mul_le_mul_iff_left₀ hf, h, ← Nat.cast_mul, Nat.cast_le]
  have ge_iff (n : ℕ) : y * i.den ≤ n ↔ c ≤ n * f := by
    rw [← mul_le_mul_iff_left₀ hf, h, ← Nat.cast_mul, Nat.cast_le]
  unfold Mem
  simp only [← not_le, le_iff, ge_iff]

theorem contains_iff (i : Interval) (c : ℕ) (s : ℤ) :
    i.contains c s = true ↔ i.Mem (c * 10 ^ s) := by
  unfold contains
  by_cases hs : 0 ≤ s
  · obtain ⟨k, rfl⟩ := Int.eq_ofNat_of_zero_le hs
    rw [mem_iff_of_scaled (f := 1) (c := c * 10 ^ k * i.den) one_pos (by simp)]
    simp only [if_pos hs, Int.toNat_natCast, Nat.pow_eq]
    split <;> simp
  · obtain ⟨k, hk⟩ := Int.eq_ofNat_of_zero_le (show 0 ≤ -s by omega)
    obtain rfl : s = -(k : ℤ) := by omega
    have hscaled : (c : ℚ) * 10 ^ (-(k : ℤ)) * i.den * (10 ^ k : ℕ) = (c * i.den : ℕ) := by
      rw [zpow_neg, zpow_natCast]
      push_cast
      field_simp
    rw [mem_iff_of_scaled (by positivity) hscaled]
    simp only [if_neg hs, hk, Int.toNat_natCast, Nat.pow_eq]
    split <;> simp

end Interval

/-- How far the interval reaches below `m`, in quarters of a unit. -/
def quarters (m : ℕ) (q : ℤ) : ℕ := if m == Nat.pow 2 52 && (-1074 : ℤ) < q then 1 else 2

def lower (m : ℕ) (q : ℤ) : ℚ := ((4 * m - quarters m q : ℕ) : ℚ) * 2 ^ (q - 2)

def upper (m : ℕ) (q : ℤ) : ℚ := ((4 * m + 2 : ℕ) : ℚ) * 2 ^ (q - 2)

variable {m m' : ℕ} {q q' : ℤ}

theorem den_pos (m : ℕ) (q : ℤ) : 0 < (Interval.of m q).den := by
  simp only [Interval.of]
  split
  · exact one_pos
  · exact Nat.two_pow_pos _

/-- A quarter of a unit, over the interval's denominator. -/
theorem quarter_eq (q : ℤ) : ((if 2 ≤ q then Nat.pow 2 (q - 2).toNat else 1 : ℕ) : ℚ) =
    2 ^ (q - 2) * ((if 2 ≤ q then 1 else Nat.pow 2 (2 - q).toNat : ℕ) : ℚ) := by
  split
  · next h =>
    obtain ⟨k, hk⟩ := Int.eq_ofNat_of_zero_le (show 0 ≤ q - 2 by omega)
    simp [hk]
  · next h =>
    obtain ⟨k, hk⟩ := Int.eq_ofNat_of_zero_le (show 0 ≤ 2 - q by omega)
    have hq : q - 2 = -(k : ℤ) := by omega
    simp [hk, hq]

theorem low_eq (m : ℕ) (q : ℤ) :
    ((Interval.of m q).low : ℚ) = lower m q * (Interval.of m q).den := by
  have h := quarter_eq q
  simp only [Interval.of, lower, quarters] at h ⊢
  rw [Nat.cast_mul, h, mul_assoc]

theorem high_eq (m : ℕ) (q : ℤ) :
    ((Interval.of m q).high : ℚ) = upper m q * (Interval.of m q).den := by
  have h := quarter_eq q
  simp only [Interval.of, upper] at h ⊢
  rw [Nat.cast_mul, h, mul_assoc]

/-- A number in quarters of its unit. -/
theorem in_quarters (m : ℕ) (q : ℤ) : (m : ℚ) * 2 ^ q = (4 * m : ℕ) * 2 ^ (q - 2) := by
  have hq : (2 : ℚ) ^ q = 2 ^ (2 : ℤ) * 2 ^ (q - 2) := by
    rw [← zpow_add₀ two_ne_zero]
    congr 1
    omega
  rw [hq]
  push_cast
  ring

theorem value_eq (m : ℕ) (q : ℤ) :
    ((Interval.of m q).value : ℚ) = m * 2 ^ q * (Interval.of m q).den := by
  have h := quarter_eq q
  simp only [Interval.of] at h ⊢
  rw [Nat.cast_mul, h, in_quarters, mul_assoc]

theorem mem_iff (y : ℚ) : (Interval.of m q).Mem y ↔
    if m % 2 = 0 then lower m q ≤ y ∧ y ≤ upper m q else lower m q < y ∧ y < upper m q := by
  have hden : (0 : ℚ) < (Interval.of m q).den := Nat.cast_pos.mpr (den_pos m q)
  have hclosed : ((Interval.of m q).closed = true) = (m % 2 = 0) := by
    simp [Interval.of]
  simp only [Interval.Mem, low_eq, high_eq, mul_le_mul_iff_left₀ hden, mul_lt_mul_iff_left₀ hden,
    hclosed]

theorem quarters_le (m : ℕ) (q : ℤ) : quarters m q ≤ 2 := by
  unfold quarters
  split <;> omega

/-! ## Neighbours -/

/-- A double and a larger one: how many quarters of the smaller one's unit
lie below the larger one's interval. -/
theorem exists_quarters (h : Canonical m q) (h' : Canonical m' q')
    (hlt : q < q' ∨ q = q' ∧ m < m') :
    ∃ k : ℕ, (k : ℚ) * 2 ^ (q - 2) ≤ lower m' q' ∧ 4 * m + 2 ≤ k ∧
      (m % 2 = 0 → m' % 2 = 0 → 4 * m + 2 < k) := by
  have hquarters := quarters_le m' q'
  rcases hlt with hq | ⟨rfl, hm⟩
  · have hfull : 2 ^ 52 ≤ m' := h'.full.resolve_right (by have := h.least; omega)
    have hlow : 2 ^ 54 - 1 ≤ 4 * m' - quarters m' q' := by
      by_cases htop : m' = 2 ^ 52
      · have hone : quarters m' q' = 1 := by
          simp [quarters, htop, show -1074 < q' by have := h.least; omega]
        omega
      · omega
    have hpow : (2 : ℚ) * 2 ^ (q - 2) ≤ 2 ^ (q' - 2) := by
      rw [← zpow_one_add₀ two_ne_zero]
      exact zpow_le_zpow_right₀ one_le_two (by omega)
    refine ⟨2 * (2 ^ 54 - 1), ?_, by have := h.lt; omega, fun heven _ => by have := h.lt; omega⟩
    calc ((2 * (2 ^ 54 - 1) : ℕ) : ℚ) * 2 ^ (q - 2) = (2 ^ 54 - 1 : ℕ) * (2 * 2 ^ (q - 2)) := by
          rw [Nat.cast_mul]; push_cast; ring
      _ ≤ (4 * m' - quarters m' q' : ℕ) * 2 ^ (q' - 2) := by gcongr
  · exact ⟨4 * m' - quarters m' q, le_rfl, by omega, fun _ _ => by omega⟩

/-- The interval of a smaller double ends where that of a larger one begins
or before; both ends belong to their intervals only if it is before. -/
theorem not_mem_of_lt (h : Canonical m q) (h' : Canonical m' q')
    (hlt : q < q' ∨ q = q' ∧ m < m') {y : ℚ} (hy : (Interval.of m q).Mem y) :
    ¬ (Interval.of m' q').Mem y := by
  obtain ⟨k, hk, hle, hstrict⟩ := exists_quarters h h' hlt
  have hpos : (0 : ℚ) < 2 ^ (q - 2) := by positivity
  have hmeet : upper m q ≤ lower m' q' :=
    (mul_le_mul_of_nonneg_right (Nat.cast_le.mpr hle) hpos.le).trans hk
  intro hy'
  rw [mem_iff] at hy hy'
  by_cases heven : m % 2 = 0 <;> by_cases heven' : m' % 2 = 0 <;>
    simp only [heven, heven', reduceIte] at hy hy'
  · have hgap : upper m q < lower m' q' :=
      (mul_lt_mul_of_pos_right (Nat.cast_lt.mpr (hstrict heven heven')) hpos).trans_le hk
    linarith
  all_goals linarith

/-- **A number belongs to one double at most.** -/
theorem eq_of_mem (h : Canonical m q) (h' : Canonical m' q') {y : ℚ}
    (hy : (Interval.of m q).Mem y) (hy' : (Interval.of m' q').Mem y) : m = m' ∧ q = q' := by
  by_contra hne
  have hcases : (q < q' ∨ q = q' ∧ m < m') ∨ q' < q ∨ q' = q ∧ m' < m := by omega
  rcases hcases with hlt | hlt
  · exact not_mem_of_lt h h' hlt hy hy'
  · exact not_mem_of_lt h' h hlt hy' hy

theorem lt_upper (m : ℕ) (q : ℤ) : (m : ℚ) * 2 ^ q < upper m q := by
  rw [in_quarters, upper]
  gcongr
  omega

theorem lower_lt (hm : 0 < m) (q : ℤ) : lower m q < m * 2 ^ q := by
  have hquarters : 0 < quarters m q := by unfold quarters; split <;> omega
  rw [in_quarters, lower]
  gcongr
  omega

theorem mem_self (m : ℕ) (q : ℤ) : (Interval.of m q).Mem (m * 2 ^ q) := by
  rw [mem_iff]
  split
  · refine ⟨?_, (lt_upper m q).le⟩
    rw [in_quarters, lower]
    gcongr
    omega
  · exact ⟨lower_lt (by omega) q, lt_upper m q⟩

theorem pos_of_mem (hm : 0 < m) {y : ℚ} (hy : (Interval.of m q).Mem y) : 0 < y := by
  have hquarters := quarters_le m q
  have hlow : 0 < lower m q := by
    have hsub : 0 < 4 * m - quarters m q := by omega
    unfold lower
    positivity
  rw [mem_iff] at hy
  split at hy <;> linarith

/-! ## The leading digit -/

theorem powerLe_iff {e : ℤ} {num den : ℕ} :
    powerLe e num den = true ↔ (10 : ℚ) ^ e * den ≤ num := by
  unfold powerLe
  by_cases he : 0 ≤ e
  · obtain ⟨k, rfl⟩ := Int.eq_ofNat_of_zero_le he
    have hcast : (10 : ℚ) ^ (k : ℤ) * den = ((den * 10 ^ k : ℕ) : ℚ) := by
      push_cast
      exact mul_comm _ _
    rw [hcast, Nat.cast_le, if_pos he]
    simp
  · obtain ⟨k, hk⟩ := Int.eq_ofNat_of_zero_le (show 0 ≤ -e by omega)
    obtain rfl : e = -(k : ℤ) := by omega
    have hpow : (0 : ℚ) < 10 ^ k := by positivity
    have hcast : (10 : ℚ) ^ (-(k : ℤ)) * den * 10 ^ k = den := by
      rw [zpow_neg, zpow_natCast]
      field_simp
    rw [if_neg he, hk, ← mul_le_mul_iff_left₀ hpow, hcast]
    simp only [Int.toNat_natCast, Nat.pow_eq, decide_eq_true_eq]
    exact_mod_cast Iff.rfl

theorem log2_sub_log2 (hm : 0 < m) (q : ℤ) :
    ((Interval.of m q).value.log2 : ℤ) - (Interval.of m q).den.log2 = m.log2 + q := by
  have hfour : 4 * m = m * 2 ^ 2 := by omega
  simp only [Interval.of, Nat.pow_eq, hfour]
  split
  · rw [mul_assoc, ← pow_add, Double.log2_mul_two_pow hm.ne']
    have hone : Nat.log2 1 = 0 := rfl
    omega
  · rw [mul_one, Double.log2_mul_two_pow hm.ne', Nat.log2_two_pow]
    omega

/-- Powers of ten against powers of two, for the exponents that occur. -/
theorem ten_pow_le : ∀ n < 1100, 10 ^ (n * 30103 / 100000) ≤ 10 * 2 ^ n := by decide +kernel

theorem two_pow_le : ∀ n < 1100, 2 ^ n ≤ 10 ^ ((n * 30103 + 99999) / 100000) := by decide +kernel

/-- The guess at the leading digit is at most one too high. -/
theorem ten_zpow_guess_le {l : ℤ} (hle : -1074 ≤ l) (hlt : l ≤ 1023) :
    (10 : ℚ) ^ (l * 30103 / 100000 - 1) ≤ 2 ^ l := by
  rcases le_total 0 l with h₀ | h₀
  · obtain ⟨n, rfl⟩ := Int.eq_ofNat_of_zero_le h₀
    have hguess : (n : ℤ) * 30103 / 100000 = (n * 30103 / 100000 : ℕ) := by omega
    have hpow : (10 : ℚ) ^ (n * 30103 / 100000) ≤ 10 * 2 ^ n :=
      mod_cast ten_pow_le n (by omega)
    rw [hguess, zpow_sub_one₀ (by norm_num), zpow_natCast, zpow_natCast]
    linarith
  · obtain ⟨n, hn⟩ := Int.eq_ofNat_of_zero_le (show 0 ≤ -l by omega)
    obtain rfl : l = -(n : ℤ) := by omega
    have hguess : -(n : ℤ) * 30103 / 100000 = -((n * 30103 + 99999) / 100000 : ℕ) := by omega
    have hpow : (2 : ℚ) ^ n ≤ 10 ^ ((n * 30103 + 99999) / 100000) :=
      mod_cast two_pow_le n (by omega)
    calc (10 : ℚ) ^ (-(n : ℤ) * 30103 / 100000 - 1)
        ≤ 10 ^ (-((n * 30103 + 99999) / 100000 : ℕ) : ℤ) :=
          zpow_le_zpow_right₀ (by norm_num) (by omega)
      _ ≤ 2 ^ (-(n : ℤ)) := by
          rw [zpow_neg, zpow_neg, zpow_natCast, zpow_natCast]
          exact inv_anti₀ (by positivity) hpow

theorem two_zpow_log2_le (hm : 0 < m) (q : ℤ) : (2 : ℚ) ^ (m.log2 + q) ≤ m * 2 ^ q := by
  have hpow : (2 : ℚ) ^ m.log2 ≤ m := mod_cast Nat.log2_self_le hm.ne'
  rw [zpow_add₀ two_ne_zero, zpow_natCast]
  gcongr

/-- **The leading digit** is not placed above the number. -/
theorem ten_zpow_leading_le (h : Canonical m q) (hm : 0 < m) :
    (10 : ℚ) ^ leading (Interval.of m q).value (Interval.of m q).den ≤ m * 2 ^ q := by
  have hden : (0 : ℚ) < (Interval.of m q).den := Nat.cast_pos.mpr (den_pos m q)
  have of_powerLe {e : ℤ} (he : powerLe e (Interval.of m q).value (Interval.of m q).den = true) :
      (10 : ℚ) ^ e ≤ m * 2 ^ q := by
    rwa [powerLe_iff, value_eq, mul_le_mul_iff_left₀ hden] at he
  have hlog : m.log2 ≤ 52 := log2_le_of_lt h.lt
  simp only [leading, log2_sub_log2 hm]
  split
  · next he => exact of_powerLe he
  split
  · next he => exact of_powerLe he
  · exact (ten_zpow_guess_le (by have := h.least; omega) (by have := h.le; omega)).trans
      (two_zpow_log2_le hm q)

/-! ## Grids -/

theorem inUnits_pos (num : ℕ) {den : ℕ} (hden : 0 < den) (s : ℤ) : 0 < (inUnits num den s).2 := by
  unfold inUnits
  split
  · exact Nat.mul_pos hden (Nat.pow_pos (by decide))
  · exact hden

theorem inUnits_eq (num den : ℕ) (s : ℤ) :
    ((inUnits num den s).1 : ℚ) * 10 ^ s * den = num * (inUnits num den s).2 := by
  unfold inUnits
  by_cases hs : 0 ≤ s
  · obtain ⟨k, rfl⟩ := Int.eq_ofNat_of_zero_le hs
    simp
    ring
  · obtain ⟨k, hk⟩ := Int.eq_ofNat_of_zero_le (show 0 ≤ -s by omega)
    obtain rfl : s = -(k : ℤ) := by omega
    rw [if_neg hs, hk]
    simp

theorem grid_bounds (m : ℕ) (q s : ℤ) {c : ℕ}
    (hc : (inUnits (Interval.of m q).value (Interval.of m q).den s).1 /
      (inUnits (Interval.of m q).value (Interval.of m q).den s).2 = c) :
    (c : ℚ) * 10 ^ s ≤ m * 2 ^ q ∧ (m : ℚ) * 2 ^ q < ((c + 1 : ℕ) : ℚ) * 10 ^ s := by
  have hden : (0 : ℚ) < (Interval.of m q).den := Nat.cast_pos.mpr (den_pos m q)
  have hpos := inUnits_pos (Interval.of m q).value (den_pos m q) s
  have heq := inUnits_eq (Interval.of m q).value (Interval.of m q).den s
  rw [value_eq] at heq
  generalize inUnits (Interval.of m q).value (Interval.of m q).den s = u at hc hpos heq
  have hcast : (0 : ℚ) < u.2 := Nat.cast_pos.mpr hpos
  have hten : (0 : ℚ) < 10 ^ s := by positivity
  have hunits : (u.1 : ℚ) * 10 ^ s = m * 2 ^ q * u.2 := by
    refine mul_right_cancel₀ hden.ne' ?_
    rw [heq]
    ring
  have hdown : (c * u.2 : ℚ) ≤ u.1 := mod_cast hc ▸ Nat.div_mul_le_self u.1 u.2
  have hup : (u.1 : ℚ) < (c + 1 : ℕ) * u.2 := mod_cast Nat.lt_mul_of_div_lt (by omega) hpos
  constructor
  · rw [← mul_le_mul_iff_left₀ hcast, ← hunits, mul_right_comm]
    exact mul_le_mul_of_nonneg_right hdown hten.le
  · rw [← mul_lt_mul_iff_left₀ hcast, ← hunits, mul_right_comm]
    exact mul_lt_mul_of_pos_right hup hten

theorem contains_of_onGrid? {i : Interval} {s : ℤ} {c : ℕ} (h : i.onGrid? s = some c) :
    i.contains c s = true := by
  unfold Interval.onGrid? at h
  grind

theorem exists_onGrid_of_contains {i : Interval} {s : ℤ} {c : ℕ}
    (hc : (inUnits i.value i.den s).1 / (inUnits i.value i.den s).2 = c)
    (h : i.contains c s = true ∨ i.contains (c + 1) s = true) : ∃ c, i.onGrid? s = some c := by
  rw [← Option.isSome_iff_exists]
  unfold Interval.onGrid?
  grind

/-- Of two numbers around the double that are less apart than its interval
is wide, one belongs to it. -/
theorem mem_or_mem (hm : 0 < m) {y z : ℚ} (hy : y ≤ m * 2 ^ q) (hz : (m : ℚ) * 2 ^ q < z)
    (hwidth : z - y < upper m q - lower m q) :
    (Interval.of m q).Mem y ∨ (Interval.of m q).Mem z := by
  have hlow := lower_lt hm q
  have hhigh := lt_upper m q
  simp only [mem_iff]
  by_cases hin : lower m q < y
  · left
    split <;> constructor <;> linarith
  · right
    split <;> constructor <;> linarith

/-- A grid finer than the interval is wide has a point in it. -/
theorem exists_onGrid (hm : 0 < m) {s : ℤ} (hs : (10 : ℚ) ^ s < upper m q - lower m q) :
    ∃ c, (Interval.of m q).onGrid? s = some c := by
  obtain ⟨hdown, hup⟩ := grid_bounds m q s rfl
  refine exists_onGrid_of_contains rfl ?_
  rw [Interval.contains_iff, Interval.contains_iff]
  refine mem_or_mem hm hdown hup ?_
  push_cast
  linarith

theorem width_eq (hm : 0 < m) (q : ℤ) :
    upper m q - lower m q = (2 + quarters m q : ℕ) * 2 ^ (q - 2) := by
  have hle : quarters m q ≤ 4 * m := (quarters_le m q).trans (by omega)
  rw [upper, lower, Nat.cast_sub hle]
  push_cast
  ring

/-- The grid of seventeen digits is fine enough. -/
theorem ten_zpow_lt_width (h : Canonical m q) (hm : 0 < m) {e : ℤ}
    (he : (10 : ℚ) ^ e ≤ m * 2 ^ q) : (10 : ℚ) ^ (e - 16) < upper m q - lower m q := by
  have hlt : 4 * m < (2 + quarters m q) * 10 ^ 16 := by
    have := h.lt
    unfold quarters
    split
    · next hm =>
      simp only [Nat.pow_eq, Bool.and_eq_true, beq_iff_eq] at hm
      omega
    · omega
  have hcast : ((4 * m : ℕ) : ℚ) < (2 + quarters m q : ℕ) * 10 ^ 16 := mod_cast hlt
  have hpos : (0 : ℚ) < 2 ^ (q - 2) := by positivity
  rw [width_eq hm, zpow_sub₀ (by norm_num), div_lt_iff₀ (by positivity)]
  calc (10 : ℚ) ^ e ≤ (4 * m : ℕ) * 2 ^ (q - 2) := in_quarters m q ▸ he
    _ < (2 + quarters m q : ℕ) * 10 ^ 16 * 2 ^ (q - 2) := mul_lt_mul_of_pos_right hcast hpos
    _ = (2 + quarters m q : ℕ) * 2 ^ (q - 2) * 10 ^ (16 : ℤ) := by norm_num; ring

/-! ## The search -/

theorem contains_search {i : Interval} {lead : ℤ}
    (hlast : ∃ c, i.onGrid? (lead - 16) = some c) {k : ℕ} {tries : ℕ} (hk : k + tries = 18)
    (htries : 0 < tries) :
    i.contains (i.search lead k tries).digits (i.search lead k tries).exponent = true := by
  induction tries generalizing k with
  | zero => exact absurd htries (lt_irrefl 0)
  | succ tries ih =>
    simp only [Interval.search]
    cases hgrid : i.onGrid? (lead - k + 1) with
    | some c => exact contains_of_onGrid? hgrid
    | none =>
      refine ih (by omega) (Nat.pos_of_ne_zero ?_)
      rintro rfl
      obtain rfl : k = 17 := by omega
      obtain ⟨c, hc⟩ := hlast
      rw [show lead - (17 : ℕ) + 1 = lead - 16 by omega, hc] at hgrid
      cases hgrid

/-- **The shortest decimal belongs to the double.** -/
theorem mem_shortest (h : Canonical m q) (hm : 0 < m) :
    (Interval.of m q).Mem (shortest m q).value := by
  refine (Interval.contains_iff _ _ _).mp (contains_search ?_ rfl (by decide))
  exact exists_onGrid hm (ten_zpow_lt_width h hm (ten_zpow_leading_le h hm))

theorem digits_shortest_pos (h : Canonical m q) (hm : 0 < m) : 0 < (shortest m q).digits := by
  have hpos := pos_of_mem hm (mem_shortest h hm)
  refine Nat.pos_of_ne_zero fun h₀ => ?_
  rw [value, h₀] at hpos
  simp at hpos

end Fluxion.Decimal
