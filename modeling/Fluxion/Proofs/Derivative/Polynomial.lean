/-
Derivatives of polynomial trees as the rules leave them, before anything is
simplified. Their value is that of the formal derivative, but they need not
have one everywhere: the rule for powers lowers an exponent zero as well, so
the derivative of `u ^ 0` is `(0 * u ^ (-1)) * u'`, and where `u` is zero the
vanishing factor comes too late.

Nothing else goes wrong (`exact_derivative_iff`): the derivative has a value
exactly where no power in the tree raises zero to zero, whether the variable
occurs in that power or not.
-/
import Mathlib.Algebra.MvPolynomial.PDeriv
import Fluxion.Tree.Traversal
import Fluxion.Proofs.Exact.Rational
import Fluxion.Proofs.Tree.Polynomial

namespace Fluxion.Tree

open Exact (reading)
open MvPolynomial (C X pderiv)

variable {α K : Type} [Field K] [LinearOrder K] [Elementary K] [Scalar α] [Exact α K]
variable {env : String → K} {l r u : Tree α} {a : α}

/-! ## Zero to the power zero -/

/-- Somewhere in the tree zero is raised to the power zero. -/
def ZeroPower (env : String → K) (t : Tree α) : Prop :=
  ∃ u a, .binary .pow u (.const a) ∈ t.depthFirst ∧ reading a = some (0 : K) ∧
    u.exact env = some 0

theorem not_zeroPower_var (x : String) : ¬(Tree.var x : Tree α).ZeroPower env := by
  simp [ZeroPower, depthFirst]

theorem not_zeroPower_const : ¬(Tree.const a).ZeroPower env := by
  simp [ZeroPower, depthFirst]

theorem zeroPower_binary {op : BinaryOp} (hop : op ≠ .pow) :
    (Tree.binary op l r).ZeroPower env ↔ l.ZeroPower env ∨ r.ZeroPower env := by
  simp [ZeroPower, depthFirst, hop.symm, or_and_right, exists_or]

theorem zeroPower_neg : (Tree.unary .neg u).ZeroPower env ↔ u.ZeroPower env := by
  simp [ZeroPower, depthFirst]

theorem zeroPower_pow : (Tree.binary .pow u (.const a)).ZeroPower env ↔
    (reading a = some (0 : K) ∧ u.exact env = some 0) ∨ u.ZeroPower env := by
  simp [ZeroPower, depthFirst, or_and_right, exists_or]

/-! ## The derivative -/

section

variable [Elementary.Natural K] {q : MvPolynomial String K} {t : Tree α} {n : ℕ}

theorem Denotes.exact_eval (h : t.Denotes X q) (env : String → K) :
    t.exact env = some (MvPolynomial.eval env q) := by
  have hvalue := h.exact (MvPolynomial.aeval env)
  simpa [MvPolynomial.aeval_X, MvPolynomial.coe_aeval_eq_eval] using hvalue

variable [Elementary.Inverse K]

/-- The rule for a literal exponent `n`. With exponent zero the value is zero
as well, but only where the base is not. -/
theorem exact_powerRule_eq_some {v : String} {u' : Tree α} {x z : K} (hu : u.exact env = some x)
    (ha : reading a = some (n : K)) :
    (powerRule v u (.const a) u' Tree.zero).exact env = some z ↔
      ¬(n = 0 ∧ x = 0) ∧ ∃ y, u'.exact env = some y ∧ n * x ^ (n - 1) * y = z := by
  have hlowered : reading (Scalar.sub a Scalar.one) = some ((n : K) - 1) :=
    Exact.reading_sub ha Exact.reading_one
  have hpower (w : K) : (Tree.binary .pow u (.const (Scalar.sub a Scalar.one))).exact env = some w ↔
      Elementary.power x ((n : K) - 1) = some w := by
    simp [exact_pow_eq_some, hu, hlowered]
  have hrule : powerRule v u (.const a) u' Tree.zero = .binary .mul
      (.binary .mul (.const a) (.binary .pow u (.const (Scalar.sub a Scalar.one)))) u' := rfl
  rw [hrule]
  simp only [exact_mul_eq_some, hpower, exact_const, ha, Option.some.injEq]
  cases n with
  | zero =>
    rw [Nat.cast_zero, zero_sub, Elementary.Inverse.power_neg_one]
    by_cases hx : x = 0
    · simp [hx]
    · simp [hx]
  | succ n =>
    rw [Nat.cast_add_one, add_sub_cancel_right, Elementary.Natural.power_natCast]
    simp

variable [IsStrictOrderedRing K]

/-- **Derivatives of polynomials.** The derivative of a polynomial tree has a
value exactly where the tree does not raise zero to the power zero, and it is
the value of the formal derivative. -/
theorem exact_derivative_iff (h : t.Denotes X q) (v : String) (env : String → K) (z : K) :
    (t.derivative v).exact env = some z ↔
      ¬t.ZeroPower env ∧ z = MvPolynomial.eval env (pderiv v q) := by
  induction h generalizing z with
  | var x =>
    have hvalue : ((Tree.var x : Tree α).derivative v).exact env =
        some (MvPolynomial.eval env (pderiv v (X x))) := by
      unfold Tree.derivative
      by_cases hx : x = v
      · rw [if_pos (beq_iff_eq.mpr hx), hx, MvPolynomial.pderiv_X_self, map_one, exact_one]
      · rw [if_neg (mt beq_iff_eq.mp hx), MvPolynomial.pderiv_X_of_ne hx, map_zero, exact_zero]
    simp [hvalue, not_zeroPower_var, eq_comm]
  | const ha =>
    rw [(pderiv v).map_algebraMap, map_zero, Tree.derivative, exact_zero]
    simp [not_zeroPower_const, eq_comm]
  | @add l r p q hl hr ihl ihr =>
    have hrule : (binary .add l r).derivative v =
        .binary .add (l.derivative v) (r.derivative v) := rfl
    rw [hrule, exact_add_eq_some, zeroPower_binary (by decide), map_add, map_add]
    simp only [ihl, ihr]
    grind
  | @sub l r p q hl hr ihl ihr =>
    have hrule : (binary .sub l r).derivative v =
        .binary .sub (l.derivative v) (r.derivative v) := rfl
    rw [hrule, exact_sub_eq_some, zeroPower_binary (by decide), map_sub, map_sub]
    simp only [ihl, ihr]
    grind
  | @mul l r p q hl hr ihl ihr =>
    have hrule : (binary .mul l r).derivative v = .binary .add
        (.binary .mul (l.derivative v) r) (.binary .mul l (r.derivative v)) := rfl
    rw [hrule, zeroPower_binary (by decide), MvPolynomial.pderiv_mul, map_add, map_mul, map_mul]
    simp only [exact_add_eq_some, exact_mul_eq_some, ihl, ihr, hl.exact_eval, hr.exact_eval]
    grind
  | @neg u p hu ih =>
    have hrule : (unary .neg u).derivative v = .unary .neg (u.derivative v) := rfl
    rw [hrule, exact_neg_eq_some, zeroPower_neg, map_neg, map_neg]
    simp only [ih]
    grind
  | @pow u p a n hu ha ih =>
    have hrule : (binary .pow u (.const a)).derivative v =
        powerRule v u (.const a) (u.derivative v) Tree.zero := rfl
    have hzero : reading a = some (0 : K) ↔ n = 0 := by
      rw [ha, Option.some.injEq, Nat.cast_eq_zero]
    rw [hrule, exact_powerRule_eq_some (hu.exact_eval env) ha, zeroPower_pow, hu.exact_eval,
      hzero, Option.some.injEq, MvPolynomial.pderiv_pow, map_mul, map_mul, map_pow, map_natCast]
    simp only [ih]
    grind

end

/-- `x ^ 2 * (y - 3) ^ 0`. -/
def zerothFactor : Tree Rational :=
  .binary .mul (.binary .pow (.var "x") (.const ⟨some 2⟩))
    (.binary .pow (.binary .sub (.var "y") (.const ⟨some 3⟩)) (.const ⟨some 0⟩))

/-- At `x = 5`, `y = 1` the power with exponent zero has the base minus two. -/
theorem exact_derivative_zerothFactor :
    zerothFactor.Denotes X (X "x" ^ 2 * (X "y" - C 3) ^ 0 : MvPolynomial String ℚ) ∧
      (zerothFactor.derivative "x").exact (fun z => if z = "x" then 5 else 1) = some (10 : ℚ) := by
  have hdenotes :
      zerothFactor.Denotes X (X "x" ^ 2 * (X "y" - C 3) ^ 0 : MvPolynomial String ℚ) :=
    .mul (.pow (.var "x") rfl) (.pow (.sub (.var "y") (.const rfl)) rfl)
  have hbases : ¬zerothFactor.ZeroPower fun z => if z = "x" then (5 : ℚ) else 1 := by
    simp only [zerothFactor, zeroPower_binary, zeroPower_pow, not_zeroPower_var,
      not_zeroPower_const, ne_eq, reduceCtorEq, not_false_eq_true, or_false]
    decide +kernel
  refine ⟨hdenotes, (exact_derivative_iff hdenotes "x" _ 10).mpr ⟨hbases, ?_⟩⟩
  norm_num [MvPolynomial.pderiv_mul, MvPolynomial.pderiv_pow]

def zerothPower : Tree Rational := .binary .pow (.var "x") (.const ⟨some 0⟩)

/-- The formal derivative of `x ^ 0` is zero everywhere, the derivative of the
tree has no value at zero. -/
theorem zerothPower_no_derivative :
    zerothPower.Denotes X (X "x" ^ 0 : MvPolynomial String ℚ) ∧
      pderiv "x" (X "x" ^ 0 : MvPolynomial String ℚ) = 0 ∧
      (zerothPower.derivative "x").exact (fun _ => 0) = none ∧
      ¬∀ (t : Tree Rational) (q : MvPolynomial String ℚ) (v : String) (env : String → ℚ),
        t.Denotes X q → (t.derivative v).exact env = some (MvPolynomial.eval env (pderiv v q)) := by
  have hdenotes : zerothPower.Denotes X (X "x" ^ 0 : MvPolynomial String ℚ) := .pow (.var "x") rfl
  have hnone : (zerothPower.derivative "x").exact (fun _ => 0) = none := by decide +kernel
  refine ⟨hdenotes, by simp, hnone, fun h => ?_⟩
  have hsome := h zerothPower _ "x" (fun _ => 0) hdenotes
  rw [hnone] at hsome
  cases hsome

end Fluxion.Tree
