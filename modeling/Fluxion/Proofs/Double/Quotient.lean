/-
Division by natural numbers in double precision. A quotient has no law of
range in general, but a divisor of size one or more does not lead out of it
(`isFinite_div`). From one on a natural number is such a double while it has
at most 1023 bits (`atLeastOne_ofNat`); with more than 1024 it is infinite
(`isFinite_ofNat_eq_false`).
-/
import Fluxion.Proofs.Double.Natural

namespace Fluxion.Double

open Float.Model Float.Model.UnpackedFloat

/-! ## Quotients -/

/-- A number of size one or more. -/
def AtLeastOne : UnpackedFloat → Prop
  | .finite _ m e _ => 2 ^ 52 ≤ m ∧ -52 ≤ e
  | _ => False

/-- The quotient of a double and a number of size one or more, before it is
rounded. -/
theorem divCore_lt {m n : Nat} {d e : Int} (hm : m < 2 ^ 53) (hd : d ≤ 971) (hn : 2 ^ 52 ≤ n)
    (he : -52 ≤ e) :
    (divCore Format.binary64 m d n e).2.1 ≤ 970 ∧
      (divCore Format.binary64 m d n e).1 <
        (2 ^ 54 - 1) * 2 ^ (970 - (divCore Format.binary64 m d n e).2.1).toNat := by
  have hmlog : m.log2 ≤ 52 := log2_le_of_lt hm
  have hnlog : 52 ≤ n.log2 := (Nat.le_log2 (by omega)).mpr hn
  have htarget : Format.binary64.targetExponent (totalExponent m d - totalExponent n e) ≤ 970 := by
    simp only [Format.targetExponent, totalExponent, Format.mantissaBits, Format.minExponent]
    norm_num
    omega
  simp only [divCore]
  generalize hT : min (d - e) _ = T
  have hle : T ≤ 970 := by omega
  refine ⟨hle, Nat.div_lt_of_lt_mul ?_⟩
  generalize hj : (970 - T).toNat = j
  -- at most 53 places are gained on the numerator, and the divisor takes 52
  have hpow : 2 ^ (d - e - T).toNat ≤ 2 ^ (j + 53) :=
    Nat.pow_le_pow_right (by decide) (by omega)
  calc m <<< (d - e - T).toNat = m * 2 ^ (d - e - T).toNat := Nat.shiftLeft_eq m _
    _ ≤ (2 ^ 53 - 1) * 2 ^ (j + 53) := Nat.mul_le_mul (by omega) hpow
    _ < 2 ^ 52 * ((2 ^ 54 - 1) * 2 ^ j) := by
      rw [Nat.pow_add]
      have := Nat.two_pow_pos j
      omega
    _ ≤ n * ((2 ^ 54 - 1) * 2 ^ j) := Nat.mul_le_mul_right _ hn

theorem inRange_div {x y : UnpackedFloat} (hx : Below 971 x) (hy : AtLeastOne y) :
    InRange (UnpackedFloat.div Format.binary64 x y) := by
  cases y with
  | finite r n e hn =>
    cases x with
    | infinity s => exact hx.elim
    | notANumber => exact hx.elim
    | zero s => trivial
    | finite s m d hm =>
      have hcore := divCore_lt hx.1 hx.2 hy.1 hy.2
      unfold UnpackedFloat.div
      dsimp only
      generalize divCore Format.binary64 m d n e = c at hcore ⊢
      obtain ⟨q, k, acc⟩ := c
      dsimp only at hcore ⊢
      exact inRange_roundWithAccuracy hcore.1 hcore.2
  | _ => exact hy.elim

/-- **Division by one or more** leads to a finite double. -/
theorem isFinite_div {a b : Float} (ha : a.isFinite = true) (hb : AtLeastOne b.toModel.unpack) :
    (Scalar.div a b).isFinite = true :=
  isFinite_ofModel_pack (inRange_div (below_of_isFinite ha) hb)

/-! ## Natural numbers -/

theorem atLeastOne_natural {n : Nat} (h₀ : n ≠ 0) (hn : n < 2 ^ 53) : AtLeastOne (natural n) := by
  rw [natural_of_ne_zero h₀ hn]
  exact ⟨(full_natural h₀ hn).le, by omega⟩

theorem unpack_ofBits (w : UInt64) :
    (Float.ofBits w).toModel.unpack = UnpackedFloat.unpack Format.binary64 w.toBitVec :=
  unpack_pack (isUnpacked_unpack _)

/-- An exponent field from 1023 on, the last one apart. -/
theorem atLeastOne_unpack {b : BitVec Format.binary64.numBits}
    (h : 1023 ≤ (unpackExponent b).toNat) (h' : (unpackExponent b).toNat ≤ 2046) :
    AtLeastOne (UnpackedFloat.unpack Format.binary64 b) := by
  rw [unpack_eq, if_neg (by omega), if_neg (by omega)]
  exact ⟨Nat.le_add_left _ _, by omega⟩

/-- The word that is made of a full significand, or of the next power of
two. -/
theorem make_eq {m : Nat} {q : Int} (hm : 2 ^ 52 ≤ m) (hm' : m ≤ 2 ^ 53) (hq : -1074 ≤ q)
    (hq' : q ≤ 970) :
    make false m q = Float.ofBits (UInt64.ofNat ((q + 1074).toNat * 2 ^ 52 + m)) := by
  have hfull : ¬m < 2 ^ 52 := by omega
  have hrange : ¬2047 * 2 ^ 52 ≤ (q + 1075).toNat * 2 ^ 52 + (m - 2 ^ 52) := by omega
  have hword : 0 + ((q + 1075).toNat * 2 ^ 52 + (m - 2 ^ 52)) =
      (q + 1074).toNat * 2 ^ 52 + m := by omega
  simp only [make, Nat.pow_eq, if_neg hfull, if_neg hrange, hword, Bool.false_eq_true, if_false]

theorem atLeastOne_make {m : Nat} {q : Int} (hm : 2 ^ 52 ≤ m) (hm' : m ≤ 2 ^ 53) (hq : -52 ≤ q)
    (hq' : q ≤ 970) : AtLeastOne (make false m q).toModel.unpack := by
  have hword : (UInt64.ofNat ((q + 1074).toNat * 2 ^ 52 + m)).toBitVec.toNat =
      (q + 1074).toNat * 2 ^ 52 + m := by
    rw [UInt64.toNat_toBitVec, UInt64.toNat_ofNat']
    exact Nat.mod_eq_of_lt (by omega)
  rw [make_eq hm hm' (by omega) hq', unpack_ofBits]
  apply atLeastOne_unpack <;> rw [toNat_unpackExponent, hword] <;> omega

/-- A rounded quotient is the quotient or the next number. -/
theorem roundDiv_eq (a d : Nat) : roundDiv a d = a / d ∨ roundDiv a d = a / d + 1 := by
  unfold roundDiv
  dsimp only
  split
  · exact .inl rfl
  split
  · exact .inr rfl
  split
  · exact .inl rfl
  · exact .inr rfl

/-- A number with more than 53 bits is cut down to that many. -/
theorem unitExponent_one {n : Nat} (hn : 2 ^ 53 ≤ n) :
    unitExponent n 1 = ((n.log2 - 52 : Nat) : Int) := by
  have h₀ : n ≠ 0 := by omega
  have hlog : 53 ≤ n.log2 := (Nat.le_log2 h₀).mpr hn
  have hguess : (n.log2 : Int) - ((1 : Nat).log2 : Int) - 52 = ((n.log2 - 52 : Nat) : Int) := by
    rw [show (1 : Nat).log2 = 0 by decide]
    omega
  have hfull : ¬n / (1 * 2 ^ (n.log2 - 52)) < 2 ^ 52 := by
    rw [Nat.one_mul, Nat.not_lt, Nat.le_div_iff_mul_le (Nat.two_pow_pos _), ← Nat.pow_add,
      show 52 + (n.log2 - 52) = n.log2 by omega]
    exact Nat.log2_self_le h₀
  simp only [unitExponent, hguess, scaled, Nat.pow_eq, Int.natCast_nonneg, if_true,
    Int.toNat_natCast, if_neg hfull]
  exact if_neg (by omega)

theorem ofNat_large {n : Nat} (hn : 2 ^ 53 ≤ n) :
    (Scalar.ofNat n : Float) =
      if 1024 ≤ n.log2 then make false (2 ^ 52) 972
      else make false (roundDiv n (2 ^ (n.log2 - 52))) ((n.log2 - 52 : Nat) : Int) := by
  have hof : (Scalar.ofNat n : Float) = ofRatio false n 1 := if_neg (by omega)
  have hne : (n == 0) = false := beq_false_of_ne (by omega)
  have hrange : (972 : Int) ≤ ((n.log2 - 52 : Nat) : Int) ↔ 1024 ≤ n.log2 := by omega
  simp only [hof, ofRatio, hne, unitExponent_one hn, hrange, scaled, Int.natCast_nonneg, if_true,
    Int.toNat_natCast, Nat.pow_eq, Nat.one_mul, Bool.false_eq_true, if_false]

theorem atLeastOne_ofNat {n : Nat} (h₀ : n ≠ 0) (hlog : n.log2 < 1023) :
    AtLeastOne (Scalar.ofNat n : Float).toModel.unpack := by
  rcases Nat.lt_or_ge n (2 ^ 53) with hsmall | hlarge
  · rw [unpack_ofNat hsmall]
    exact atLeastOne_natural h₀ hsmall
  · have hlog' : 53 ≤ n.log2 := (Nat.le_log2 h₀).mpr hlarge
    have hself : n < 2 ^ (n.log2 + 1) := Nat.lt_log2_self
    have hsplit (k : Nat) : 2 ^ (52 + k + (n.log2 - 52)) = 2 ^ (n.log2 + k) := by
      congr 1; omega
    have hquotient : 2 ^ 52 ≤ n / 2 ^ (n.log2 - 52) ∧ n / 2 ^ (n.log2 - 52) < 2 ^ 53 := by
      constructor
      · rw [Nat.le_div_iff_mul_le (Nat.two_pow_pos _), ← Nat.pow_add, hsplit 0]
        exact Nat.log2_self_le h₀
      · rw [Nat.div_lt_iff_lt_mul (Nat.two_pow_pos _), ← Nat.pow_add, hsplit 1]
        exact hself
    rw [ofNat_large hlarge, if_neg (by omega)]
    have hround := roundDiv_eq n (2 ^ (n.log2 - 52))
    exact atLeastOne_make (by omega) (by omega) (by omega) (by omega)

theorem isFinite_of_atLeastOne {x : UnpackedFloat} (h : AtLeastOne x) : x.isFinite = true := by
  cases x with
  | finite s m e hm => rfl
  | _ => exact h.elim

/-- A natural number with more than 1024 bits is beyond the range. -/
theorem isFinite_ofNat_eq_false {n : Nat} (hlog : 1024 ≤ n.log2) :
    (Scalar.ofNat n : Float).isFinite = false := by
  have h₀ : n ≠ 0 := by
    rintro rfl
    exact absurd hlog (by decide)
  have hself : 2 ^ n.log2 ≤ n := Nat.log2_self_le h₀
  have hpow : 2 ^ 53 ≤ 2 ^ n.log2 := Nat.pow_le_pow_right (by decide) (by omega)
  rw [ofNat_large (hpow.trans hself), if_pos hlog]
  decide +kernel

end Fluxion.Double
