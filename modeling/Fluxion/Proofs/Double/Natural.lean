/-
Counting in double precision. A natural number below `2^53` is a double
with a full significand, and what is computed of such numbers here is exact:
they are compared as numbers, one less is one less, and a factor of one or
minus one changes nothing but the sign.

Everything rests on rounding: a number that has a full significand already
is rounded to itself, from whatever exponent it comes
(`roundWithAccuracy_full`, `round_full`). `Counting` is what is used of it.
-/
import Fluxion.Proofs.Double.Spelling
import Fluxion.Proofs.Exact.Closed

namespace Fluxion

/-- Numbers that count exactly, at least as far as double precision
does. -/
class Counting (α : Type) [Scalar α] : Prop extends Steady α where
  eq_ofNat {m n : Nat} (hm : m < 2 ^ 53) (hn : n < 2 ^ 53) :
    Scalar.eq (Scalar.ofNat m : α) (Scalar.ofNat n) = decide (m = n)
  eq_neg_one {n : Nat} (hn : n < 2 ^ 53) :
    Scalar.eq (Scalar.ofNat n : α) (Scalar.neg Scalar.one) = false
  gt_zero {n : Nat} (h₀ : 0 < n) (hn : n < 2 ^ 53) :
    Scalar.gt (Scalar.ofNat n : α) Scalar.zero = true
  isInteger_ofNat {n : Nat} (hn : n < 2 ^ 53) : Scalar.isInteger (Scalar.ofNat n : α) = true
  isFinite_ofNat {n : Nat} (hn : n < 2 ^ 53) : Scalar.isFinite (Scalar.ofNat n : α) = true
  sub_one {n : Nat} (hn : n + 1 < 2 ^ 53) :
    Scalar.sub (Scalar.ofNat (n + 1) : α) Scalar.one = Scalar.ofNat n
  one_mul {n : Nat} (hn : n < 2 ^ 53) :
    Scalar.mul Scalar.one (Scalar.ofNat n : α) = Scalar.ofNat n
  neg_one_mul {n : Nat} (hn : n < 2 ^ 53) :
    Scalar.mul (Scalar.neg Scalar.one) (Scalar.ofNat n : α) = Scalar.neg (Scalar.ofNat n)

instance : Counting Closed where
  eq_ofNat _ _ := by simp [Scalar.eq, Scalar.holds, Scalar.ofNat, Closed.compare, Relation.exact]
  eq_neg_one _ := by
    simp [Scalar.eq, Scalar.holds, Scalar.ofNat, Scalar.neg, Scalar.one, Scalar.unary,
      Closed.transform, Closed.compare, Relation.exact]
  gt_zero h₀ _ := by
    simpa [Scalar.gt, Scalar.holds, Scalar.ofNat, Scalar.zero, Closed.compare, Relation.exact]
      using h₀
  isInteger_ofNat _ := rfl
  isFinite_ofNat _ := rfl
  sub_one _ := by
    simp [Scalar.sub, Scalar.binary, Scalar.ofNat, Scalar.one, Closed.operate]
  one_mul _ := by
    simp [Scalar.mul, Scalar.binary, Scalar.ofNat, Scalar.one, Closed.operate]
  neg_one_mul _ := by
    simp [Scalar.mul, Scalar.neg, Scalar.binary, Scalar.unary, Scalar.ofNat, Scalar.one,
      Closed.operate, Closed.transform]

namespace Counting

variable {α : Type} [Scalar α] [Counting α] {m n : Nat}

theorem eq_ofNat_of_ne (hm : m < 2 ^ 53) (hn : n < 2 ^ 53) (h : m ≠ n) :
    Scalar.eq (Scalar.ofNat m : α) (Scalar.ofNat n) = false :=
  (eq_ofNat hm hn).trans (decide_eq_false h)

theorem one_eq_one : Scalar.eq (Scalar.one : α) Scalar.one = true :=
  (eq_ofNat (by decide) (by decide)).trans (decide_eq_true rfl)

theorem one_ne_zero : Scalar.eq (Scalar.one : α) Scalar.zero = false :=
  eq_ofNat_of_ne (by decide) (by decide) Nat.one_ne_zero

end Counting

namespace Double

open Float.Model Float.Model.UnpackedFloat

/-! ## Rounding what needs no rounding -/

/-- A significand of exactly 53 bits. -/
structure Full (m : Nat) : Prop where
  le : 2 ^ 52 ≤ m
  lt : m < 2 ^ 53

theorem Full.pos {m : Nat} (h : Full m) : 0 < m := Nat.lt_of_lt_of_le (by decide) h.le

theorem Full.log2_eq {m : Nat} (h : Full m) : m.log2 = 52 :=
  (Nat.log2_eq_iff h.pos.ne').mpr ⟨h.le, h.lt⟩

/-- Shifting out zeros leaves nothing to round. -/
theorem roundedMantissa_shift_mul (m k : Nat) :
    ((⟨m * 2 ^ k, false, false⟩ : ExtendedMantissa) >>> k).roundedMantissa = m := by
  have hmant := mantissa_shiftRight (⟨m * 2 ^ k, false, false⟩ : ExtendedMantissa) k
  rw [Nat.mul_div_cancel m (Nat.two_pow_pos k)] at hmant
  rw [roundedMantissa_of_roundBit, hmant]
  cases k with
  | zero => rfl
  | succ k =>
    rw [roundBit_shiftRight]
    have hdiv : m * 2 ^ (k + 1) / 2 ^ k = m * 2 := by
      rw [Nat.pow_succ, Nat.mul_comm (2 ^ k) 2, ← Nat.mul_assoc,
        Nat.mul_div_cancel _ (Nat.two_pow_pos k)]
    simp [hdiv]

theorem targetExponent_full {m : Nat} (h : Full m) (k : Nat) {q : Int} (hq : -1074 ≤ q) :
    Format.binary64.targetExponent (totalExponent (m * 2 ^ k) (q - k)) = q := by
  rw [targetExponent_eq, log2_mul_two_pow h.pos.ne', h.log2_eq]
  push_cast
  omega

/-- A full significand is found again behind any number of zeros. -/
theorem roundWithAccuracy_full {s : Sign} {m : Nat} (h : Full m) (k : Nat) {q : Int}
    (hq : -1074 ≤ q) :
    roundWithAccuracy Format.binary64 s (m * 2 ^ k) (q - k) .exact = .finite s m q h.pos := by
  have hzero := targetExponent_full h 0 hq
  simp only [Nat.pow_zero, Nat.mul_one, Int.natCast_zero, sub_zero] at hzero
  have hk : (q - (q - k)).toNat = k := by omega
  have hback : q - (k : Int) + k = q := by omega
  simp only [roundWithAccuracy, shiftToTargetExponent, shiftToExponent, targetExponent_full h k hq,
    ExtendedMantissa.ofMantissaAndAccuracy, hk, hback, roundedMantissa_shift_mul, hzero, sub_self,
    Int.toNat_zero, Int.natCast_zero, add_zero, mantissa_shiftRight, Nat.pow_zero, Nat.div_one]
  rw [dif_neg h.pos.ne']

theorem round_zeros {s : Sign} {m : Nat} (h : Full m) (k : Nat) {q : Int} (hq : -1074 ≤ q) :
    UnpackedFloat.round Format.binary64 s (m * 2 ^ k) (q - k) = .finite s m q h.pos := by
  simp only [UnpackedFloat.round, decreaseExponent, targetExponent_full h k hq]
  rw [show (q - k - q).toNat = 0 by omega, Nat.shiftLeft_zero, Int.natCast_zero, sub_zero,
    roundWithAccuracy_full h k hq]

/-- A short significand is filled up with zeros. -/
theorem round_short {s : Sign} {n i : Nat} (h : Full (n * 2 ^ i)) {q : Int} (hq : -1074 ≤ q) :
    UnpackedFloat.round Format.binary64 s n (q + i) = .finite s (n * 2 ^ i) q h.pos := by
  have hn : n ≠ 0 := fun h₀ => h.pos.ne' (by rw [h₀, Nat.zero_mul])
  have hlog : n.log2 + i = 52 := by rw [← log2_mul_two_pow hn, h.log2_eq]
  have htarget : Format.binary64.targetExponent (totalExponent n (q + i)) = q := by
    rw [targetExponent_eq]
    omega
  have hround := roundWithAccuracy_full (s := s) h 0 hq
  simp only [Nat.pow_zero, Nat.mul_one, Int.natCast_zero, sub_zero] at hround
  simp only [UnpackedFloat.round, decreaseExponent, htarget]
  rw [show (q + i - q).toNat = i by omega, Nat.shiftLeft_eq, show q + (i : Int) - i = q by omega,
    hround]

/-! ## Natural numbers -/

def natural (n : Nat) : UnpackedFloat :=
  if h : n = 0 then .zero .positive
  else .finite .positive (n * 2 ^ (52 - n.log2)) (n.log2 - 52)
    (Nat.mul_pos (Nat.pos_of_ne_zero h) (Nat.two_pow_pos _))

theorem natural_zero : natural 0 = .zero .positive := rfl

theorem full_natural {n : Nat} (h₀ : n ≠ 0) (hn : n < 2 ^ 53) : Full (n * 2 ^ (52 - n.log2)) := by
  have hlog : n.log2 ≤ 52 := log2_le_of_lt hn
  have hpos : n * 2 ^ (52 - n.log2) ≠ 0 := Nat.mul_ne_zero h₀ (Nat.two_pow_pos _).ne'
  have hlog' : (n * 2 ^ (52 - n.log2)).log2 = 52 := by rw [log2_mul_two_pow h₀]; omega
  obtain ⟨hle, hlt⟩ := (Nat.log2_eq_iff hpos).mp hlog'
  exact ⟨hle, hlt⟩

theorem natural_of_ne_zero {n : Nat} (h₀ : n ≠ 0) (hn : n < 2 ^ 53) :
    natural n = .finite .positive (n * 2 ^ (52 - n.log2)) (n.log2 - 52) (full_natural h₀ hn).pos :=
  dif_neg h₀

theorem Full.canonical {m : Nat} (h : Full m) {q : Int} (hq : -1074 ≤ q) (hq' : q ≤ 971) :
    Canonical m q :=
  ⟨h.lt, .inl h.le, hq, hq'⟩

theorem isUnpacked_natural {n : Nat} (hn : n < 2 ^ 53) : IsUnpacked (natural n) := by
  by_cases h₀ : n = 0
  · subst h₀; trivial
  · have hlog : n.log2 ≤ 52 := log2_le_of_lt hn
    rw [natural_of_ne_zero h₀ hn]
    exact (full_natural h₀ hn).canonical (by omega) (by omega)

/-- Rounding a natural number, given with the exponent `-k`. -/
theorem normalize_natural {n : Nat} (hn : n < 2 ^ 53) (k : Nat) (hk : k = 0 ∨ k = 52) :
    UnpackedFloat.normalize Format.binary64 ((n * 2 ^ k : Nat) : Int) (-k) .positive =
      natural n := by
  by_cases h₀ : n = 0
  · subst h₀
    rw [Nat.zero_mul]
    rfl
  have hlog : n.log2 ≤ 52 := log2_le_of_lt hn
  have hfull := full_natural h₀ hn
  have hpos : compare ((n * 2 ^ k : Nat) : Int) 0 = .gt := by
    rw [compare_gt_iff_gt]
    have := Nat.mul_pos (Nat.pos_of_ne_zero h₀) (Nat.two_pow_pos k)
    omega
  rw [UnpackedFloat.normalize, hpos, natural_of_ne_zero h₀ hn]
  dsimp only
  rw [Int.toNat_natCast]
  rcases hk with rfl | rfl
  · have := round_short (s := .positive) hfull (q := n.log2 - 52) (by omega)
    rw [Nat.pow_zero, Nat.mul_one, ← this]
    congr 1
    omega
  · have := round_zeros (s := .positive) hfull n.log2 (q := n.log2 - 52) (by omega)
    rw [Nat.mul_assoc, ← Nat.pow_add, show 52 - n.log2 + n.log2 = 52 by omega] at this
    rw [← this]
    congr 1
    omega

def unit (s : Sign) : UnpackedFloat := .finite s (2 ^ 52) (-52) (by decide)

/-- A number with the sign of `s`. -/
def signed (s : Sign) (n : Nat) : UnpackedFloat :=
  match s with
  | .positive => natural n
  | .negative => (natural n).neg

/-- A factor of one or minus one changes nothing but the sign. -/
theorem mul_unit {s : Sign} {n : Nat} (hn : n < 2 ^ 53) :
    UnpackedFloat.mul Format.binary64 (unit s) (natural n) = signed s n ∧
      UnpackedFloat.mul Format.binary64 (natural n) (unit s) = signed s n := by
  by_cases h₀ : n = 0
  · subst h₀
    cases s <;> exact ⟨rfl, rfl⟩
  have hround (r : Sign) := roundWithAccuracy_full (s := r) (full_natural h₀ hn) 52
    (q := n.log2 - 52) (by omega)
  have hleft : (-52 : Int) + (n.log2 - 52) = n.log2 - 52 - (52 : Nat) := by omega
  have hright : (n.log2 - 52 : Int) + -52 = n.log2 - 52 - (52 : Nat) := by omega
  rw [natural_of_ne_zero h₀ hn, unit, UnpackedFloat.mul, UnpackedFloat.mul, hleft, hright,
    Nat.mul_comm (2 ^ 52), hround, hround]
  cases s <;> simp only [signed, natural_of_ne_zero h₀ hn] <;> exact ⟨rfl, rfl⟩

/-! ## Doubles -/

theorem unpack_toFloat {n : Nat} (hn : n < 2 ^ 53) :
    n.toUInt64.toFloat.toModel.unpack = natural n := by
  have hnat : n.toUInt64.toNat = n := by
    rw [Nat.toUInt64, UInt64.toNat_ofNat']
    exact Nat.mod_eq_of_lt (by omega)
  have hround := normalize_natural hn 0 (.inl rfl)
  rw [Nat.pow_zero, Nat.mul_one, Int.natCast_zero, neg_zero] at hround
  have hmodel : UnpackedFloat.ofUInt64 Format.binary64 n.toUInt64 = natural n := by
    rw [UnpackedFloat.ofUInt64, hnat, UnpackedFloat.ofNat, UnpackedFloat.ofInt, hround]
  have hpack : n.toUInt64.toFloat.toModel.unpack =
      (Float.Model.pack (UnpackedFloat.ofUInt64 Format.binary64 n.toUInt64)).unpack := rfl
  rw [hpack, hmodel]
  exact unpack_pack (isUnpacked_natural hn)

theorem ofNat_eq_pack {n : Nat} (hn : n < 2 ^ 53) :
    (Scalar.ofNat n : Float) = Float.ofModel (Float.Model.pack (natural n)) := by
  have hlit : (Scalar.ofNat n : Float) = n.toUInt64.toFloat * Float.ofBits 0x3FF0000000000000 := by
    have hlt : n < 9007199254740992 := hn
    simp only [Scalar.ofNat, hlt, if_true, Float.ofNat, OfScientific.ofScientific]
    rw [Float.ofScientific, dif_pos ⟨hn, by decide⟩]
    rfl
  have hmul : n.toUInt64.toFloat * Float.ofBits 0x3FF0000000000000 =
      Float.ofModel (Float.Model.pack (UnpackedFloat.mul Format.binary64
        n.toUInt64.toFloat.toModel.unpack (unit .positive))) := rfl
  rw [hlit, hmul, unpack_toFloat hn, (mul_unit hn).2]
  rfl

theorem unpack_ofNat {n : Nat} (hn : n < 2 ^ 53) :
    (Scalar.ofNat n : Float).toModel.unpack = natural n := by
  rw [ofNat_eq_pack hn]
  exact unpack_pack (isUnpacked_natural hn)

/-! ## Arithmetic -/

theorem sub_unit_natural {n : Nat} (hn : n + 1 < 2 ^ 53) :
    UnpackedFloat.sub Format.binary64 (natural (n + 1)) (unit .positive) = natural n := by
  have hlog : (n + 1).log2 ≤ 52 := log2_le_of_lt hn
  have hmin : min (((n + 1).log2 : Int) - 52) (-52) = -52 := by omega
  have hleft : ((n + 1) * 2 ^ (52 - (n + 1).log2)) <<<
      (((n + 1).log2 : Int) - 52 - -52).toNat = (n + 1) * 2 ^ 52 := by
    rw [Nat.shiftLeft_eq, Nat.mul_assoc, ← Nat.pow_add]
    congr 2
    omega
  have hdiff : (((n + 1) * 2 ^ 52 : Nat) : Int) - ((2 ^ 52 : Nat) : Int) =
      ((n * 2 ^ 52 : Nat) : Int) := by
    rw [Nat.add_mul]
    omega
  rw [natural_of_ne_zero (Nat.succ_ne_zero n) hn, unit, UnpackedFloat.sub]
  simp only [decreaseExponent, hmin, hleft, Sign.apply]
  rw [show (-52 - -52 : Int).toNat = 0 by decide, Nat.shiftLeft_zero, hdiff]
  exact normalize_natural (by omega) 52 (.inr rfl)

theorem eq_zero_of_natural {n : Nat} {s : Sign} (h : natural n = .zero s) : n = 0 := by
  unfold natural at h
  split at h
  · assumption
  · cases h

/-- The exponent tells how far the significand was filled up. -/
theorem natural_injective {m n : Nat} (h : natural m = natural n) : m = n := by
  by_cases hm : m = 0
  · subst hm
    exact (eq_zero_of_natural (h.symm.trans natural_zero)).symm
  by_cases hn : n = 0
  · subst hn
    exact eq_zero_of_natural h
  · rw [natural, natural, dif_neg hm, dif_neg hn, UnpackedFloat.finite.injEq] at h
    obtain ⟨-, hmant, hexp⟩ := h
    rw [show m.log2 = n.log2 by omega] at hmant
    exact Nat.eq_of_mul_eq_mul_right (Nat.two_pow_pos _) hmant

theorem compare_natural {m n : Nat} : (natural m).compare (natural n) = some .eq ↔ m = n := by
  constructor
  · intro h
    rcases eq_or_zero_of_compare h with heq | ⟨s, r, hm, hn⟩
    · exact natural_injective heq
    · rw [eq_zero_of_natural hm, eq_zero_of_natural hn]
  · rintro rfl
    by_cases h₀ : m = 0
    · subst h₀; rfl
    · rw [natural, dif_neg h₀]
      simp [UnpackedFloat.compare]

theorem isFinite_natural (n : Nat) : (natural n).isFinite = true := by
  by_cases h₀ : n = 0
  · subst h₀; rfl
  · rw [natural, dif_neg h₀]; rfl

theorem isInteger_natural {n : Nat} (hn : n < 2 ^ 53) :
    isInteger (Scalar.ofNat n : Float) = true := by
  have hparts : parts (Scalar.ofNat n : Float) = .of (natural n) := by
    rw [parts_eq, unpack_ofNat hn]
  by_cases h₀ : n = 0
  · rw [h₀, natural_zero, Parts.of] at hparts
    rw [h₀, isInteger_eq hparts, integral_zero]
  · have hlog : n.log2 ≤ 52 := log2_le_of_lt hn
    have hq : (-((n.log2 : Int) - 52)).toNat = 52 - n.log2 := by omega
    rw [natural_of_ne_zero h₀ hn, Parts.of] at hparts
    rw [isInteger_eq hparts, integral, hq]
    simp

instance : Counting Float where
  eq_ofNat {m n} hm hn := by
    rw [eq_eq, unpack_ofNat hm, unpack_ofNat hn, Bool.eq_iff_iff, beq_iff_eq, decide_eq_true_iff]
    exact compare_natural
  eq_neg_one {n} hn := by
    rw [eq_eq, unpack_ofNat hn]
    by_cases h₀ : n = 0
    · subst h₀; rfl
    · rw [natural_of_ne_zero h₀ hn]
      rfl
  gt_zero {n} h₀ hn := by
    have hlt : Scalar.gt (Scalar.ofNat n : Float) Scalar.zero =
        Scalar.lt (Scalar.zero : Float) (Scalar.ofNat n) := rfl
    rw [hlt, lt_eq, unpack_zero, unpack_ofNat hn, natural_of_ne_zero h₀.ne' hn]
    rfl
  isInteger_ofNat hn := isInteger_natural hn
  isFinite_ofNat {n} hn := by
    change (Scalar.ofNat n : Float).toModel.unpack.isFinite = true
    rw [unpack_ofNat hn, isFinite_natural]
  sub_one {n} hn := by
    have hsub : Scalar.sub (Scalar.ofNat (n + 1) : Float) Scalar.one =
        Float.ofModel (Float.Model.pack (UnpackedFloat.sub Format.binary64
          (Scalar.ofNat (n + 1) : Float).toModel.unpack (unit .positive))) := rfl
    rw [hsub, unpack_ofNat hn, sub_unit_natural hn, ofNat_eq_pack (by omega)]
  one_mul {n} hn := by
    have hmul : Scalar.mul (Scalar.one : Float) (Scalar.ofNat n) =
        Float.ofModel (Float.Model.pack (UnpackedFloat.mul Format.binary64 (unit .positive)
          (Scalar.ofNat n : Float).toModel.unpack)) := rfl
    rw [hmul, unpack_ofNat hn, (mul_unit hn).1, ofNat_eq_pack hn]
    rfl
  neg_one_mul {n} hn := by
    have hmul : Scalar.mul (Scalar.neg Scalar.one : Float) (Scalar.ofNat n) =
        Float.ofModel (Float.Model.pack (UnpackedFloat.mul Format.binary64 (unit .negative)
          (Scalar.ofNat n : Float).toModel.unpack)) := rfl
    have hneg : Scalar.neg (Scalar.ofNat n : Float) = Float.ofModel (Float.Model.pack
        (Scalar.ofNat n : Float).toModel.unpack.neg) := rfl
    rw [hmul, hneg, unpack_ofNat hn, (mul_unit hn).1]
    rfl

end Double

end Fluxion
