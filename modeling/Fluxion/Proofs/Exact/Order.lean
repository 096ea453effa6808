/-
Sizes of exact numbers: comparisons are those of the field, and absolute
values and maxima are made of them.

`Exact` leaves open what becomes of decimals and of roundings, and
`Elementary` which powers there are besides those with exponents zero and
one. What is asked of them where they matter is said here, one class for
each.
-/
import Mathlib.Algebra.Order.Ring.Abs
import Fluxion.Proofs.Exact

namespace Fluxion

/-- Powers with natural exponents are repeated products. -/
class Elementary.Natural (K : Type) [Field K] [LinearOrder K] [Elementary K] : Prop where
  power_natCast (x : K) (n : ℕ) : Elementary.power x n = some (x ^ n)

/-- The power with exponent minus one is the inverse; zero has none. -/
class Elementary.Inverse (K : Type) [Field K] [LinearOrder K] [Elementary K] : Prop where
  power_neg_one (x : K) : Elementary.power x (-1) = if x = 0 then none else some x⁻¹

namespace Exact

/-- Decimals are not rounded. -/
class Decimals (α : Type) {K : Type} [Field K] [LinearOrder K] [Elementary K] [Scalar α]
    [Exact α K] : Prop where
  reading_decimal (m e : ℤ) : reading (Scalar.decimal m e : α) = some ((m : K) * 10 ^ e)

/-- Rounding leads to an integer that is nowhere farther than one half. -/
class Rounding (α : Type) {K : Type} [Field K] [LinearOrder K] [Elementary K] [Scalar α]
    [Exact α K] : Prop where
  reading_round {a : α} {x : K} (ha : reading a = some x) :
    ∃ n : ℤ, reading (Scalar.round a) = some (n : K) ∧ |x - n| ≤ 1 / 2

variable {α K : Type} [Field K] [LinearOrder K] [Elementary K] [Scalar α] [Exact α K]
variable {a b : α} {x y : K}

theorem lt_iff (ha : reading a = some x) (hb : reading b = some y) :
    Scalar.lt a b = true ↔ x < y := by
  simp [Scalar.lt, holds_eq ha hb, Relation.exact]

theorem le_iff (ha : reading a = some x) (hb : reading b = some y) :
    Scalar.le a b = true ↔ x ≤ y := by
  simp [Scalar.le, holds_eq ha hb, Relation.exact]

theorem gt_iff (ha : reading a = some x) (hb : reading b = some y) :
    Scalar.gt a b = true ↔ y < x := by
  simp [Scalar.gt, holds_eq ha hb, Relation.exact]

theorem reading_max (ha : reading a = some x) (hb : reading b = some y) :
    reading (Scalar.max a b) = some (max x y) := by
  unfold Scalar.max
  split
  · next h => rw [hb, max_eq_right ((gt_iff hb ha).mp h).le]
  · next h => rw [ha, max_eq_left (not_lt.mp (mt (gt_iff hb ha).mpr h))]

theorem reading_abs [IsStrictOrderedRing K] (ha : reading a = some x) :
    reading (Scalar.abs a) = some |x| := by
  unfold Scalar.abs
  split
  · next h => rw [reading_neg ha, abs_of_neg ((lt_iff ha reading_zero).mp h)]
  · next h => rw [ha, abs_of_nonneg (not_lt.mp (mt (lt_iff ha reading_zero).mpr h))]

end Exact

end Fluxion
