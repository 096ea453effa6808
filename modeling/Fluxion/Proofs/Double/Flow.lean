/-
How a value that is not finite flows on through double precision. Sums,
differences, products, opposites and square roots are finite for finite
operands only. A quotient is the exception among the operations: by an
infinity it is zero, unless the numerator is not finite either.
-/
import Fluxion.Proofs.Double

namespace Fluxion.Double

open Float.Model Float.Model.UnpackedFloat

/-! ## Unpacked doubles -/

/-- Packing turns nothing into a finite double that was none. -/
theorem isFinite_of_pack {f : UnpackedFloat}
    (h : (UnpackedFloat.unpack Format.binary64
      (UnpackedFloat.pack Format.binary64 f)).isFinite = true) : f.isFinite = true := by
  rw [isFinite_unpack] at h
  cases f with
  | notANumber => exact absurd unpackExponent_packComponents h
  | infinity s => exact absurd unpackExponent_packComponents h
  | zero s => rfl
  | finite s m e hm => rfl

variable {spec : Format} {x y : UnpackedFloat}

theorem isFinite_of_add (h : (UnpackedFloat.add spec x y).isFinite = true) :
    x.isFinite = true ∧ y.isFinite = true := by
  cases x with
  | notANumber => cases h
  | infinity s =>
    cases y with
    | infinity r =>
      unfold UnpackedFloat.add at h
      dsimp only at h
      split at h <;> cases h
    | _ => cases h
  | _ =>
    cases y with
    | infinity r => cases h
    | notANumber => cases h
    | _ => exact ⟨rfl, rfl⟩

theorem isFinite_of_neg (h : x.neg.isFinite = true) : x.isFinite = true := by
  cases x <;> simp_all [UnpackedFloat.neg, UnpackedFloat.isFinite]

theorem apply_neg (s : Sign) (n : Int) : (-s).apply n = -s.apply n := by
  cases s
  · exact (Int.neg_neg n).symm
  · rfl

theorem sub_eq_add_neg : UnpackedFloat.sub spec x y = UnpackedFloat.add spec x y.neg := by
  cases x with
  | finite s m e hm =>
    cases y with
    | finite r n k hn =>
      simp only [UnpackedFloat.sub, UnpackedFloat.add, UnpackedFloat.neg, apply_neg,
        Int.sub_eq_add_neg]
    | _ => rfl
  | _ => cases y <;> rfl

theorem isFinite_of_sub (h : (UnpackedFloat.sub spec x y).isFinite = true) :
    x.isFinite = true ∧ y.isFinite = true := by
  rw [sub_eq_add_neg] at h
  exact (isFinite_of_add h).imp_right isFinite_of_neg

theorem isFinite_of_mul (h : (UnpackedFloat.mul spec x y).isFinite = true) :
    x.isFinite = true ∧ y.isFinite = true := by
  cases x <;> cases y <;> simp_all [UnpackedFloat.mul, UnpackedFloat.isFinite]

theorem isFinite_of_sqrt (h : (UnpackedFloat.sqrt spec x).isFinite = true) :
    x.isFinite = true := by
  cases x with
  | infinity s => cases s <;> cases h
  | notANumber => cases h
  | _ => rfl

theorem isFinite_of_div (h : (UnpackedFloat.div spec x y).isFinite = true) :
    x.isFinite = true ∧ (y.isFinite = true ∨ y.isInf = true) := by
  cases x <;> cases y <;> simp_all [UnpackedFloat.div, UnpackedFloat.isFinite, UnpackedFloat.isInf]

theorem isFinite_of_isInf (h : x.isInf = true) : x.isFinite = false := by
  cases x <;> first | rfl | cases h

/-- Divided by an infinity, a finite number is zero. -/
theorem div_infinite (hx : x.isFinite = true) (hy : y.isInf = true) :
    ∃ s, UnpackedFloat.div spec x y = .zero s := by
  cases y with
  | infinity r =>
    cases x with
    | infinity s => cases hx
    | notANumber => cases hx
    | zero s => exact ⟨_, rfl⟩
    | finite s m e hm => exact ⟨_, rfl⟩
  | _ => cases hy

/-! ## The kernels -/

theorem isFinite_of_ofModel_pack {f : UnpackedFloat}
    (h : (Float.ofModel (Float.Model.pack f)).isFinite = true) : f.isFinite = true :=
  isFinite_of_pack h

variable {a b : Float}

/-- Sums, differences and products have finite operands. -/
theorem isFinite_of_binary {op : BinaryOp} (hdiv : op ≠ .div) (hpow : op ≠ .pow)
    (h : (Double.binary op a b).isFinite = true) : a.isFinite = true ∧ b.isFinite = true := by
  cases op with
  | add => exact isFinite_of_add (isFinite_of_ofModel_pack h)
  | sub => exact isFinite_of_sub (isFinite_of_ofModel_pack h)
  | mul => exact isFinite_of_mul (isFinite_of_ofModel_pack h)
  | div => exact absurd rfl hdiv
  | pow => exact absurd rfl hpow

/-- So have opposites and square roots. -/
theorem isFinite_of_unary {op : UnaryOp} (hop : op = .neg ∨ op = .sqrt)
    (h : (Double.unary op a).isFinite = true) : a.isFinite = true := by
  rcases hop with rfl | rfl
  · exact isFinite_of_neg (isFinite_of_ofModel_pack h)
  · exact isFinite_of_sqrt (isFinite_of_ofModel_pack h)

/-- A finite quotient has a finite numerator, and a divisor that is a
number, if not a finite one. -/
theorem isFinite_of_quotient (h : (Double.binary .div a b).isFinite = true) :
    a.isFinite = true ∧ (b.isFinite = true ∨ b.isInf = true) :=
  isFinite_of_div (isFinite_of_ofModel_pack h)

theorem isFinite_quotient_infinite (ha : a.isFinite = true) (hb : b.isInf = true) :
    (Double.binary .div a b).isFinite = true := by
  obtain ⟨s, hs⟩ := @div_infinite .binary64 a.toModel.unpack b.toModel.unpack ha hb
  refine isFinite_ofModel_pack ?_
  rw [hs]
  trivial

end Fluxion.Double
