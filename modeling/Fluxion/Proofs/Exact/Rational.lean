/-
Exact numbers that compute: rational numbers, with one more value for what
has none. Powers are those with integer exponents, apart from those of one,
and the named functions have no values. A tie is rounded to the even
neighbour.
-/
import Mathlib.Algebra.Order.Floor.Ring
import Mathlib.Algebra.Order.Ring.Rat
import Mathlib.Data.Rat.Floor
import Mathlib.Tactic.Linarith
import Fluxion.Proofs.Exact.Order

namespace Fluxion

instance : Elementary ℚ where
  power x y :=
    if y.den = 1 then if x = 0 ∧ y < 0 then none else some (x ^ y.num)
    else if x = 1 then some 1 else none
  function _ _ := none
  power_zero x := by simp
  power_one x := by simp
  one_power y := by simp

instance : Elementary.Natural ℚ where
  power_natCast x n := by
    have hn : ¬((n : ℚ) < 0) := not_lt.mpr (Nat.cast_nonneg n)
    simp [Elementary.power, hn]

instance : Elementary.Inverse ℚ where
  power_neg_one x := by
    by_cases hx : x = 0
    · simp [Elementary.power, hx]
    · simp [Elementary.power, hx]

/-- A rational number, or none. -/
structure Rational where
  value : Option ℚ
deriving DecidableEq

namespace Rational

/-- The nearest integer, a tie going to the even one. -/
def nearest (x : ℚ) : ℤ :=
  let n := ⌊x + 1 / 2⌋
  if x + 1 / 2 = n ∧ n % 2 = 1 then n - 1 else n

theorem abs_sub_nearest_le (x : ℚ) : |x - nearest x| ≤ 1 / 2 := by
  have hle := Int.floor_le (x + 1 / 2)
  have hlt := Int.lt_floor_add_one (x + 1 / 2)
  rw [abs_le]
  unfold nearest
  dsimp only
  split
  · next h =>
    push_cast
    constructor <;> linarith [h.1]
  · constructor <;> linarith

instance : Scalar Rational where
  ofNat n := ⟨some n⟩
  decimal m e := ⟨some (m * 10 ^ e)⟩
  binary op a b := ⟨do
    let x ← a.value
    let y ← b.value
    op.exact x y⟩
  unary op a := ⟨a.value.bind op.exact⟩
  holds rel a b :=
    match a.value, b.value with
    | some x, some y => rel.exact x y
    | _, _ => false
  isFinite a := a.value.isSome
  isInteger a := a.value.any fun x => x.den == 1
  round a := ⟨a.value.map fun x => nearest x⟩
  digest _ := 0

instance : Exact Rational ℚ where
  reading := value
  isFinite_eq _ := rfl
  reading_ofNat _ := rfl
  reading_binary ha hb := by simp [Scalar.binary, ha, hb]
  reading_unary ha := by simp [Scalar.unary, ha]
  holds_eq ha hb := by simp only [Scalar.holds, ha, hb]
  isFinite_of_eq {a b} h _ := by
    cases ha : a.value with
    | none => simp [Scalar.eq, Scalar.holds, ha] at h
    | some x => simp [Scalar.isFinite, ha]

instance : Exact.Decimals Rational where
  reading_decimal _ _ := rfl

instance : Exact.Rounding Rational where
  reading_round {a x} ha := by
    refine ⟨nearest x, ?_, abs_sub_nearest_le x⟩
    have ha' : a.value = some x := ha
    simp [Exact.reading, Scalar.round, ha']

end Rational

end Fluxion
