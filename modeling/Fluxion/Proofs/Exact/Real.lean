/-
The real numbers as the field in which values are read: where each named
function and each power is defined, and what it is there.

A power with a negative base is defined for integer exponents only, and
zero has no negative powers; `0 ^ 0` is one. Where it is defined the power
is the library's real power.
-/
import Mathlib.Analysis.SpecialFunctions.Trigonometric.Arctan
import Mathlib.Analysis.SpecialFunctions.Trigonometric.Inverse
import Mathlib.Analysis.SpecialFunctions.Pow.Real
import Fluxion.Proofs.Exact.Order
import Fluxion.Proofs.Exact.Worth

namespace Fluxion

/-- Where `x ^ y` is defined. -/
def PowerDefined (x y : ℝ) : Prop :=
  0 < x ∨ (x = 0 ∧ 0 ≤ y) ∨ (x < 0 ∧ ∃ n : ℤ, (n : ℝ) = y)

/-- Where a function is defined. -/
def UnaryOp.Domain (op : UnaryOp) (x : ℝ) : Prop :=
  match op with
  | .neg | .sin | .cos | .exp | .atan => True
  | .tan | .sec => Real.cos x ≠ 0
  | .csc | .cot => Real.sin x ≠ 0
  | .ln => 0 < x
  | .sqrt => 0 ≤ x
  | .asin | .acos => -1 ≤ x ∧ x ≤ 1

/-- The function itself, with a value of no meaning outside its domain. -/
noncomputable def UnaryOp.real (op : UnaryOp) (x : ℝ) : ℝ :=
  match op with
  | .neg => -x
  | .sin => Real.sin x
  | .cos => Real.cos x
  | .tan => Real.tan x
  | .sec => 1 / Real.cos x
  | .csc => 1 / Real.sin x
  | .cot => Real.cos x / Real.sin x
  | .exp => Real.exp x
  | .ln => Real.log x
  | .sqrt => Real.sqrt x
  | .asin => Real.arcsin x
  | .acos => Real.arccos x
  | .atan => Real.arctan x

theorem PowerDefined.natCast (x : ℝ) (n : ℕ) : PowerDefined x n := by
  rcases lt_trichotomy x 0 with h | h | h
  · exact .inr (.inr ⟨h, n, Int.cast_natCast n⟩)
  · exact .inr (.inl ⟨h, Nat.cast_nonneg n⟩)
  · exact .inl h

theorem PowerDefined.zero (x : ℝ) : PowerDefined x 0 := by
  simpa using PowerDefined.natCast x 0

theorem PowerDefined.one (x : ℝ) : PowerDefined x 1 := by
  simpa using PowerDefined.natCast x 1

open Classical in
noncomputable instance : Elementary ℝ where
  power x y := if PowerDefined x y then some (x ^ y) else none
  function op x := if op.Domain x then some (op.real x) else none
  power_zero x := by rw [if_pos (.zero x), Real.rpow_zero]
  power_one x := by rw [if_pos (.one x), Real.rpow_one]
  one_power x := by rw [if_pos (.inl one_pos), Real.one_rpow]

theorem power_eq_some {x y z : ℝ} :
    Elementary.power x y = some z ↔ PowerDefined x y ∧ x ^ y = z := by
  simp [Elementary.power]

theorem function_eq_some {op : UnaryOp} {x z : ℝ} :
    Elementary.function op x = some z ↔ op.Domain x ∧ op.real x = z := by
  simp [Elementary.function]

theorem UnaryOp.exact_eq_some {op : UnaryOp} {x z : ℝ} :
    op.exact x = some z ↔ op.Domain x ∧ op.real x = z := by
  cases op <;> first | exact function_eq_some | simp [UnaryOp.exact, Domain, real]

/-- A power and the power with the opposite exponent are inverse to each
other where both are defined. -/
theorem power_mul_power_neg {x n p q : ℝ} (hp : Elementary.power x n = some p)
    (hq : Elementary.power x (-n) = some q) : p * q = 1 := by
  obtain ⟨hn, rfl⟩ := power_eq_some.mp hp
  obtain ⟨hm, rfl⟩ := power_eq_some.mp hq
  rcases lt_trichotomy x 0 with hx | rfl | hx
  · obtain ⟨k, rfl⟩ : ∃ k : ℤ, (k : ℝ) = n := by
      rcases hn with h | ⟨h, -⟩ | ⟨-, h⟩
      · exact absurd h hx.not_gt
      · exact absurd h hx.ne
      · exact h
    rw [← Int.cast_neg, Real.rpow_intCast, Real.rpow_intCast, ← zpow_add₀ hx.ne, add_neg_cancel,
      zpow_zero]
  · have h₁ : 0 ≤ n := by
      rcases hn with h | ⟨-, h⟩ | ⟨h, -⟩
      · exact absurd h (lt_irrefl 0)
      · exact h
      · exact absurd h (lt_irrefl 0)
    have h₂ : 0 ≤ -n := by
      rcases hm with h | ⟨-, h⟩ | ⟨h, -⟩
      · exact absurd h (lt_irrefl 0)
      · exact h
      · exact absurd h (lt_irrefl 0)
    have h₀ : n = 0 := le_antisymm (neg_nonneg.mp h₂) h₁
    simp [h₀]
  · rw [← Real.rpow_add hx, add_neg_cancel, Real.rpow_zero]

/-- A power with a negative exponent is the reciprocal of the power with
the opposite exponent. -/
theorem power_eq_one_div {x y z : ℝ} (hy : y < 0) (h : Elementary.power x y = some z) :
    ∃ d, Elementary.power x (-y) = some d ∧ d ≠ 0 ∧ 1 / d = z := by
  have hdefined : PowerDefined x (-y) := by
    rcases (power_eq_some.mp h).1 with hx | ⟨-, hnonneg⟩ | ⟨hx, n, hn⟩
    · exact .inl hx
    · exact absurd hy hnonneg.not_gt
    · exact .inr (.inr ⟨hx, -n, by rw [Int.cast_neg, hn]⟩)
  have hd : Elementary.power x (-y) = some (x ^ (-y)) := power_eq_some.mpr ⟨hdefined, rfl⟩
  have hinverse : z * x ^ (-y) = 1 := power_mul_power_neg h hd
  have hne : x ^ (-y) ≠ 0 := right_ne_zero_of_mul_eq_one hinverse
  exact ⟨_, hd, hne, (eq_div_of_mul_eq hne hinverse).symm⟩

/-- The power with exponent one half is the square root. -/
theorem sqrt_of_power_half {x z : ℝ} (h : Elementary.power x (1 / 2) = some z) :
    UnaryOp.sqrt.exact x = some z := by
  obtain ⟨hdefined, rfl⟩ := power_eq_some.mp h
  have hx : 0 ≤ x := by
    rcases hdefined with hx | ⟨rfl, -⟩ | ⟨-, n, hn⟩
    · exact hx.le
    · exact le_rfl
    · -- one half is not an integer
      have hdouble : ((2 * n : ℤ) : ℝ) = (1 : ℤ) := by push_cast; linarith
      have hint : 2 * n = 1 := Int.cast_injective hdouble
      omega
  exact UnaryOp.exact_eq_some.mpr ⟨hx, Real.sqrt_eq_rpow x⟩

instance : Elementary.Natural ℝ where
  power_natCast x n := power_eq_some.mpr ⟨.natCast x n, Real.rpow_natCast x n⟩

instance : Elementary.Inverse ℝ where
  power_neg_one x := by
    split
    · next h =>
      refine if_neg fun hx => ?_
      rcases hx with hx | ⟨-, hx⟩ | ⟨hx, -⟩
      · exact hx.ne' h
      · exact absurd hx (by norm_num)
      · exact hx.ne h
    · next h =>
      refine power_eq_some.mpr ⟨?_, Real.rpow_neg_one x⟩
      rcases lt_or_gt_of_ne h with hx | hx
      · exact .inr (.inr ⟨hx, -1, by norm_num⟩)
      · exact .inl hx

theorem power_two (x : ℝ) : Elementary.power x 2 = some (x ^ 2) := by
  simpa using Elementary.Natural.power_natCast x 2

namespace Tree

variable {α : Type} [Scalar α] [Exact α ℝ] {env : String → ℝ} {l r u : Tree α}

theorem defined_pow : (Tree.binary .pow l r).Defined env ↔
    l.Defined env ∧ r.Defined env ∧ PowerDefined (l.worth env) (r.worth env) := by
  simp only [Defined, exact_pow_eq_some, power_eq_some]
  constructor
  · rintro ⟨-, x, y, hx, hy, hp, -⟩
    exact ⟨⟨x, hx⟩, ⟨y, hy⟩, by rwa [worth_eq hx, worth_eq hy]⟩
  · rintro ⟨⟨x, hx⟩, ⟨y, hy⟩, hp⟩
    exact ⟨_, x, y, hx, hy, by rwa [worth_eq hx, worth_eq hy] at hp, rfl⟩

theorem worth_pow (h : (Tree.binary .pow l r).Defined env) :
    (Tree.binary .pow l r).worth env = l.worth env ^ r.worth env := by
  obtain ⟨hl, hr, hp⟩ := defined_pow.mp h
  exact worth_eq (exact_pow_eq_some.mpr
    ⟨_, _, hl.exact_eq, hr.exact_eq, power_eq_some.mpr ⟨hp, rfl⟩⟩)

theorem defined_unary {op : UnaryOp} :
    (Tree.unary op u).Defined env ↔ u.Defined env ∧ op.Domain (u.worth env) := by
  simp only [Defined, exact_unary_eq_some, UnaryOp.exact_eq_some]
  constructor
  · rintro ⟨-, x, hx, hd, -⟩; exact ⟨⟨x, hx⟩, by rwa [worth_eq hx]⟩
  · rintro ⟨⟨x, hx⟩, hd⟩; exact ⟨_, x, hx, by rwa [worth_eq hx] at hd, rfl⟩

end Tree

end Fluxion
