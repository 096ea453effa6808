/-
Products of doubles. The order of the factors makes no difference, and
equal factors of a product that is not finite are one and the same double:
the only doubles that are equal and not the same are the two zeros.
-/
import Mathlib
import Fluxion.Proofs.Double

namespace Fluxion.Double

open Float.Model Float.Model.UnpackedFloat

theorem sign_mul_comm (s r : Sign) : s * r = r * s := by
  cases s <;> cases r <;> rfl

theorem unpacked_mul_comm (spec : Format) (x y : UnpackedFloat) :
    UnpackedFloat.mul spec x y = UnpackedFloat.mul spec y x := by
  cases x <;> cases y <;>
    simp only [UnpackedFloat.mul, sign_mul_comm, Nat.mul_comm, Int.add_comm]

instance : Std.Commutative (Scalar.mul : Float → Float → Float) where
  comm a b := congrArg (fun x => Float.ofModel (Float.Model.pack x))
    (unpacked_mul_comm Format.binary64 a.toModel.unpack b.toModel.unpack)

/-- A finite double equals itself. -/
theorem eq_self {a : Float} (h : a.isFinite = true) : Scalar.eq a a = true := by
  refine Float.beq_self_iff.mpr ?_
  rintro rfl
  exact absurd h (by decide)

/-- Equal factors of a product that is not finite are the same. -/
theorem eq_of_mul_not_isFinite {a b : Float} (h : Scalar.eq a b = true)
    (hmul : (Scalar.mul a b).isFinite = false) : a = b := by
  obtain ⟨-, -, hab | ⟨rfl, rfl⟩ | ⟨rfl, rfl⟩⟩ := Float.beq_iff_ne_nan_and_eq.mp h
  · exact hab
  · exact absurd hmul (by decide)
  · exact absurd hmul (by decide)

end Fluxion.Double
