/-
What the parts of a double are. `parts` reads sign, significand and power of
two off the bits, and unpacking finds the same ones (`parts_eq`). They are
`Canonical`: the significand is full or the power is the least, so a number
has only one such form. What is canonical comes out of packing as it went in
(`unpack_pack`), so an opposite has the same parts but for the sign.
-/
import Fluxion.Proofs.Double

namespace Fluxion.Double

open Float.Model Float.Model.UnpackedFloat

/-- The significands and powers of two of finite doubles. -/
structure Canonical (m : Nat) (q : Int) : Prop where
  lt : m < 2 ^ 53
  full : 2 ^ 52 ≤ m ∨ q = -1074
  least : -1074 ≤ q
  le : q ≤ 971

/-- What a double can be unpacked into. -/
def IsUnpacked : UnpackedFloat → Prop
  | .finite _ m q _ => Canonical m q
  | _ => True

def isNegative : Sign → Bool
  | .negative => true
  | .positive => false

@[simp] theorem isNegative_neg (s : Sign) : isNegative (-s) = !isNegative s := by
  cases s <;> rfl

def Parts.of : UnpackedFloat → Parts
  | .notANumber => .nan
  | .infinity s => .infinite (isNegative s)
  | .zero s => .finite (isNegative s) 0 (-1074)
  | .finite s m q _ => .finite (isNegative s) m q

/-! ## Fields -/

section

variable (b : BitVec Format.binary64.numBits)

theorem toNat_unpackMantissa : (unpackMantissa b).toNat = b.toNat % 2 ^ 52 := by
  simp [unpackMantissa]

theorem toNat_unpackExponent : (unpackExponent b).toNat = b.toNat / 2 ^ 52 % 2 ^ 11 := by
  simp [unpackExponent, Nat.shiftRight_eq_div_pow]

theorem toNat_unpackSign : (unpackSign b).toNat = b.toNat / 2 ^ 63 := by
  have hlt : b.toNat < 2 ^ 64 := b.isLt
  simp [unpackSign, Nat.shiftRight_eq_div_pow]
  omega

theorem isNegative_unpackSign :
    isNegative (Sign.ofBitVec (unpackSign b)) = (b.toNat / 2 ^ 63 == 1) := by
  rw [← toNat_unpackSign]
  generalize unpackSign b = s
  have hlt := s.isLt
  unfold Sign.ofBitVec
  split
  · next h => rw [h]; rfl
  · next h =>
    have hne : s.toNat ≠ 0 := fun h₀ => h (BitVec.eq_of_toNat_eq h₀)
    rw [show s.toNat = 1 by omega]
    rfl

theorem toNat_append_one (m : BitVec 52) : (1#1 ++ m).toNat = m.toNat + 2 ^ 52 := by
  rw [BitVec.toNat_append, ← Nat.shiftLeft_add_eq_or_of_lt m.isLt, Nat.shiftLeft_eq]
  simp [Nat.add_comm]

/-- The four readings of a bit pattern, told apart by exponent and
mantissa. -/
theorem unpack_eq : UnpackedFloat.unpack Format.binary64 b =
    if (unpackExponent b).toNat = 2047 then
      if (unpackMantissa b).toNat = 0 then .infinity (Sign.ofBitVec (unpackSign b))
      else .notANumber
    else if (unpackExponent b).toNat = 0 then
      if h : (unpackMantissa b).toNat = 0 then .zero (Sign.ofBitVec (unpackSign b))
      else .finite (Sign.ofBitVec (unpackSign b)) (unpackMantissa b).toNat (-1074)
        (Nat.pos_of_ne_zero h)
    else .finite (Sign.ofBitVec (unpackSign b)) ((unpackMantissa b).toNat + 2 ^ 52)
      ((unpackExponent b).toNat - 1075) (by omega) := by
  have hexp : unpackExponent b = -1#11 ↔ (unpackExponent b).toNat = 2047 := BitVec.toNat_inj.symm
  have hzero : unpackExponent b = 0#11 ↔ (unpackExponent b).toNat = 0 := BitVec.toNat_inj.symm
  have hm : unpackMantissa b = 0#52 ↔ (unpackMantissa b).toNat = 0 := BitVec.toNat_inj.symm
  unfold UnpackedFloat.unpack
  simp only [hexp, hzero, hm, toNat_append_one, Format.exponentBias]
  split
  · rfl
  split
  · next h =>
    simp [h]
  · simp

end

/-- The bits hold the parts that unpacking finds. -/
theorem parts_eq (x : Float) : parts x = .of x.toModel.unpack := by
  have hbits : x.toBits.toNat = x.toModel.toBits.toBitVec.toNat := rfl
  rw [Float.Model.unpack, unpack_eq]
  simp only [parts, hbits, toNat_unpackMantissa, toNat_unpackExponent, beq_iff_eq, Nat.pow_eq]
  generalize x.toModel.toBits.toBitVec = b
  split
  · split <;> simp only [Parts.of, isNegative_unpackSign]
  split
  · split
    · next h => simp only [Parts.of, isNegative_unpackSign, h]
    · simp only [Parts.of, isNegative_unpackSign]
  · simp only [Parts.of, isNegative_unpackSign]

/-! ## Canonical parts -/

theorem isUnpacked_unpack (b : BitVec Format.binary64.numBits) :
    IsUnpacked (UnpackedFloat.unpack Format.binary64 b) := by
  have hm : (unpackMantissa b).toNat < 2 ^ 52 := BitVec.isLt _
  have he : (unpackExponent b).toNat < 2 ^ 11 := BitVec.isLt _
  rw [unpack_eq]
  split
  · split <;> trivial
  split
  · split
    · trivial
    · exact ⟨by omega, .inr rfl, by omega, by omega⟩
  · exact ⟨by omega, .inl (by omega), by omega, by omega⟩

theorem unpackSign_packComponents {s : Sign} {e : BitVec 11} {m : BitVec 52} :
    Sign.ofBitVec (unpackSign (packComponents Format.binary64 s e m)) = s := by
  simp only [unpackSign, packComponents, BitVec.extractLsb]
  rw [BitVec.extractLsb'_append_eq_of_le (by omega),
    BitVec.extractLsb'_append_eq_of_le (by omega)]
  cases s <;> rfl

theorem log2_eq_iff {m : Nat} (h : m < 2 ^ 53) : m.log2 + 1 = 53 ↔ 2 ^ 52 ≤ m := by
  have hle : m.log2 ≤ 52 := log2_le_of_lt h
  by_cases hm : m = 0
  · subst hm; decide
  · rw [← Nat.le_log2 hm]
    omega

/-- What is canonical comes out of packing as it went in. -/
theorem unpack_pack {f : UnpackedFloat} (h : IsUnpacked f) :
    UnpackedFloat.unpack Format.binary64 (UnpackedFloat.pack Format.binary64 f) = f := by
  cases f with
  | infinity s => cases s <;> rfl
  | notANumber => rfl
  | zero s => cases s <;> rfl
  | finite s m q hm =>
    obtain ⟨hlt, hfull, hleast, hle⟩ := h
    have hexp : (q + Format.binary64.exponentBias +
        Format.binary64.mantissaBitsWithoutImplicit).toNat = (q + 1075).toNat := by
      simp [Format.exponentBias]
      omega
    have hbits : Format.binary64.mantissaBits = 53 := rfl
    unfold UnpackedFloat.pack
    dsimp only
    rw [hexp, if_neg (by simp; omega)]
    simp only [hbits, log2_eq_iff hlt]
    split
    · next hfull =>
      have hq : (BitVec.ofNat 11 (q + 1075).toNat).toNat = (q + 1075).toNat := by
        rw [BitVec.toNat_ofNat]
        exact Nat.mod_eq_of_lt (by omega)
      have hm : (BitVec.ofNat 52 m).toNat = m - 2 ^ 52 := by
        rw [BitVec.toNat_ofNat]
        omega
      rw [unpack_eq]
      simp only [unpackExponent_packComponents, unpackMantissa_packComponents,
        unpackSign_packComponents, hq, hm]
      rw [if_neg (by omega), if_neg (by omega), UnpackedFloat.finite.injEq]
      exact ⟨rfl, by omega, by omega⟩
    · next hpart =>
      obtain rfl : q = -1074 := hfull.resolve_left hpart
      have hm : (BitVec.ofNat 52 m).toNat = m := by
        rw [BitVec.toNat_ofNat]
        omega
      rw [unpack_eq]
      simp only [unpackExponent_packComponents, unpackMantissa_packComponents,
        unpackSign_packComponents, hm]
      rw [if_neg (by decide), if_pos (by decide), dif_neg (by omega)]

theorem IsUnpacked.neg {f : UnpackedFloat} (h : IsUnpacked f) : IsUnpacked f.neg := by
  cases f <;> exact h

theorem unpack_neg (x : Float) : (-x).toModel.unpack = x.toModel.unpack.neg :=
  unpack_pack (isUnpacked_unpack _).neg

/-! ## Doubles by their parts -/

variable {x y : Float} {n : Bool} {m : Nat} {q : Int}

theorem exists_parts (h : x.isFinite = true) :
    ∃ n m q, parts x = .finite n m q ∧ Canonical m q := by
  have hx := isUnpacked_unpack x.toModel.toBits.toBitVec
  change IsUnpacked x.toModel.unpack at hx
  change x.toModel.unpack.isFinite = true at h
  rw [parts_eq]
  cases hf : x.toModel.unpack with rw [hf] at hx h
  | zero s => exact ⟨_, 0, -1074, rfl, by decide, .inr rfl, by decide, by decide⟩
  | finite s m q hm => exact ⟨_, m, q, rfl, hx⟩
  | infinity s => cases h
  | notANumber => cases h

theorem unpack_of_parts (h : parts x = .finite n m q) :
    (∃ s, x.toModel.unpack = .zero s ∧ isNegative s = n ∧ m = 0 ∧ q = -1074) ∨
      ∃ s hm, x.toModel.unpack = .finite s m q hm ∧ isNegative s = n := by
  rw [parts_eq] at h
  cases hf : x.toModel.unpack with rw [hf] at h
  | zero s =>
    obtain ⟨rfl, rfl, rfl⟩ := Parts.finite.inj h
    exact .inl ⟨s, rfl, rfl, rfl, rfl⟩
  | finite s m q hm =>
    obtain ⟨rfl, rfl, rfl⟩ := Parts.finite.inj h
    exact .inr ⟨s, hm, rfl, rfl⟩
  | infinity s => cases h
  | notANumber => cases h

theorem isFinite_of_parts (h : parts x = .finite n m q) : x.isFinite = true := by
  change x.toModel.unpack.isFinite = true
  rcases unpack_of_parts h with ⟨s, hf, -⟩ | ⟨s, hm, hf, -⟩ <;> rw [hf] <;> rfl

theorem parts_neg (h : parts x = .finite n m q) : parts (-x) = .finite (!n) m q := by
  rw [parts_eq, unpack_neg]
  rcases unpack_of_parts h with ⟨s, hf, rfl, rfl, rfl⟩ | ⟨s, hm, hf, rfl⟩ <;> rw [hf] <;>
    simp [UnpackedFloat.neg, Parts.of]

theorem unpack_zero : (Scalar.zero : Float).toModel.unpack = .zero .positive := rfl

theorem lt_eq (x y : Float) :
    Scalar.lt x y = (x.toModel.unpack.compare y.toModel.unpack == some .lt) := by
  simp only [Scalar.lt, Scalar.holds, holds]
  rw [Bool.eq_iff_iff, decide_eq_true_iff]
  exact decide_eq_true_iff

theorem eq_eq (x y : Float) :
    Scalar.eq x y = (x.toModel.unpack.compare y.toModel.unpack == some .eq) := rfl

/-- A number is below zero if it has a minus sign and is not zero. -/
theorem lt_zero_iff (h : parts x = .finite n m q) :
    Scalar.lt x Scalar.zero = true ↔ n = true ∧ 0 < m := by
  rw [lt_eq, unpack_zero]
  rcases unpack_of_parts h with ⟨s, hf, -, rfl, -⟩ | ⟨s, hm, hf, rfl⟩
  · rw [hf]
    simp [UnpackedFloat.compare]
  · rw [hf]
    cases s <;> simp [UnpackedFloat.compare, isNegative, hm]

/-- Numbers of the same parts are equal, and all zeros are. -/
theorem eq_of_parts {n' : Bool} (hx : parts x = .finite n m q) (hy : parts y = .finite n' m q)
    (hn : n = n' ∨ m = 0) : Scalar.eq x y = true := by
  rw [eq_eq]
  rcases unpack_of_parts hx with ⟨s, hf, -, rfl, -⟩ | ⟨s, hm, hf, rfl⟩ <;>
    rcases unpack_of_parts hy with ⟨r, hg, hr⟩ | ⟨r, hr, hg, rfl⟩
  · rw [hf, hg]; rfl
  · omega
  · omega
  · rw [hf, hg]
    obtain hsr := hn.resolve_right (by omega)
    cases s <;> cases r <;> simp_all [UnpackedFloat.compare, isNegative]

theorem abs_neg (x : Float) : (-x).abs = x.abs := by
  have habs (f : UnpackedFloat) : f.neg.abs = f.abs := by cases f <;> rfl
  change Float.ofModel (Float.Model.pack (-x).toModel.unpack.abs) = _
  rw [unpack_neg, habs]
  rfl

end Fluxion.Double
