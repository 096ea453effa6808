/-
The five-point difference of polynomials. Its weights are chosen so that
powers of the step up to the fourth cancel but for the first
(`stencil_eq_derivative`); so on a polynomial of degree four or less it is
not an approximation. The value of the symbolic derivative is that of the
formal one wherever there is any, and so the two ways to differentiate meet
(`fivePoint_eq_derivative`).
-/
import Mathlib.Tactic.Ring
import Fluxion.Numeric.Difference
import Fluxion.Proofs.Exact.Rational
import Fluxion.Proofs.Tree.Polynomial

namespace Fluxion.Numeric

open Exact (reading)
open Polynomial

variable {α K : Type} [Field K] [LinearOrder K] [Elementary K] [Scalar α] [Exact α K]
variable {v : String} {t : Tree α} {q : K[X]} {x s : K}

omit [LinearOrder K] [Elementary K] in
/-- Compared by coefficients, of which there are five. -/
theorem stencil_eq_derivative (hq : q.natDegree ≤ 4) (x s : K) :
    -q.eval (x + 2 * s) + 8 * q.eval (x + s) - 8 * q.eval (x - s) + q.eval (x - 2 * s) =
      q.derivative.eval x * (12 * s) := by
  have hlt : q.natDegree < 5 := Nat.lt_succ_of_le hq
  have hlt' : q.derivative.natDegree < 5 := (natDegree_derivative_le q).trans_lt (by omega)
  have hfive : q.coeff 5 = 0 := coeff_eq_zero_of_natDegree_lt hlt
  simp only [eval_eq_sum_range' hlt, eval_eq_sum_range' hlt', Finset.sum_range_succ,
    Finset.sum_range_zero, coeff_derivative, hfive]
  push_cast
  ring

variable [IsStrictOrderedRing K] [Elementary.Natural K]

theorem reading_fivePoint (ht : t.Represents v q) {h a : α} (hh : reading h = some s)
    (hs : s ≠ 0) (ha : reading a = some x) :
    ∃ c, fivePoint t v h a = .ok c ∧ reading c = some
      ((-q.eval (x + 2 * s) + 8 * q.eval (x + s) - 8 * q.eval (x - s) + q.eval (x - 2 * s)) /
        (12 * s)) := by
  have hdouble : reading (Scalar.mul Scalar.two h) = some (2 * s) :=
    Exact.reading_mul Exact.reading_two hh
  have h₈ : reading (Scalar.ofNat 8 : α) = some (8 : K) :=
    (Exact.reading_ofNat 8).trans (congrArg some (by norm_num))
  have h₁₂ : reading (Scalar.ofNat 12 : α) = some (12 : K) :=
    (Exact.reading_ofNat 12).trans (congrArg some (by norm_num))
  obtain ⟨c₁, h₁, r₁⟩ := ht.evaluateAt (Exact.reading_add ha hdouble)
  obtain ⟨c₂, h₂, r₂⟩ := ht.evaluateAt (Exact.reading_add ha hh)
  obtain ⟨c₃, h₃, r₃⟩ := ht.evaluateAt (Exact.reading_sub ha hh)
  obtain ⟨c₄, h₄, r₄⟩ := ht.evaluateAt (Exact.reading_sub ha hdouble)
  refine ⟨_, bind_eq_ok.mpr ⟨c₁, h₁, bind_eq_ok.mpr ⟨c₂, h₂, bind_eq_ok.mpr ⟨c₃, h₃,
    bind_eq_ok.mpr ⟨c₄, h₄, rfl⟩⟩⟩⟩, ?_⟩
  have hsum := Exact.reading_add (Exact.reading_sub (Exact.reading_add (Exact.reading_neg r₁)
    (Exact.reading_mul h₈ r₂)) (Exact.reading_mul h₈ r₃)) r₄
  exact Exact.reading_div hsum (Exact.reading_mul h₁₂ hh) (mul_ne_zero (by norm_num) hs)

/-- Where the derivative of a polynomial tree has a value, it is that of the
formal derivative: simplification keeps the value and makes a polynomial tree
of it. -/
theorem eval_of_exact_derivative (ht : t.Represents v q) {env : String → K} {z : K}
    (hz : (t.derivative v).exact env = some z) : z = q.derivative.eval (env v) :=
  Option.some.inj ((Tree.exact_simplify_eq hz).symm.trans (ht.derivative.exact env))

/-- **Numerical and symbolic derivatives coincide on quartics.** Of a tree for
a polynomial of degree at most four, the five-point difference with any step
is the value of the derivative, wherever that has one. -/
theorem fivePoint_eq_derivative (t : Tree α) (v : String) (q : K[X]) (ht : t.Represents v q)
    (hq : q.natDegree ≤ 4) (h a : α) (s : K) (hh : reading h = some s) (hs : 0 < s)
    (env : String → K) (ha : reading a = some (env v)) (z : K)
    (hz : (t.derivative v).exact env = some z) :
    ∃ c, fivePoint t v h a = .ok c ∧ reading c = some z := by
  obtain ⟨c, hc, hread⟩ := reading_fivePoint ht hh hs.ne' ha
  refine ⟨c, hc, ?_⟩
  have hne : (12 : K) * s ≠ 0 := mul_ne_zero (by norm_num) hs.ne'
  rw [hread, stencil_eq_derivative hq, mul_div_cancel_right₀ _ hne, eval_of_exact_derivative ht hz]

/-- `(x ^ 2 + 1) ^ 2 + (x ^ 5 - x ^ 5)`. -/
def disguisedQuartic : Tree Rational :=
  .binary .add
    (.binary .pow (.binary .add (.binary .pow (.var "x") (.const ⟨some 2⟩)) (.const ⟨some 1⟩))
      (.const ⟨some 2⟩))
    (.binary .sub (.binary .pow (.var "x") (.const ⟨some 5⟩))
      (.binary .pow (.var "x") (.const ⟨some 5⟩)))

/-- At three, with a step of one half. -/
theorem fivePoint_disguisedQuartic :
    disguisedQuartic.Represents "x" ((X ^ 2 + C 1) ^ 2 + (X ^ 5 - X ^ 5) : ℚ[X]) ∧
      ((X ^ 2 + C 1) ^ 2 + (X ^ 5 - X ^ 5) : ℚ[X]).natDegree ≤ 4 ∧
      (disguisedQuartic.derivative "x").exact (fun _ => 3) = some (120 : ℚ) ∧
      ∃ c : Rational, fivePoint disguisedQuartic "x" ⟨some (1 / 2)⟩ ⟨some 3⟩ = .ok c ∧
        reading c = some (120 : ℚ) := by
  have hvar (n : ℕ) : (Tree.binary .pow (.var "x") (.const (⟨some n⟩ : Rational))).Represents "x"
      (X ^ n : ℚ[X]) := .pow .var rfl
  have ht : disguisedQuartic.Represents "x" ((X ^ 2 + C 1) ^ 2 + (X ^ 5 - X ^ 5) : ℚ[X]) :=
    .add (.pow (.add (hvar 2) (.const rfl)) rfl) (.sub (hvar 5) (hvar 5))
  have hq : ((X ^ 2 + C 1) ^ 2 + (X ^ 5 - X ^ 5) : ℚ[X]).natDegree ≤ 4 := by
    rw [sub_self, add_zero]
    compute_degree
  have hz : (disguisedQuartic.derivative "x").exact (fun _ => 3) = some (120 : ℚ) := by
    decide +kernel
  exact ⟨ht, hq, hz, fivePoint_eq_derivative _ "x" _ ht hq ⟨some (1 / 2)⟩ ⟨some 3⟩ (1 / 2) rfl
    (by norm_num) (fun _ => 3) rfl 120 hz⟩

end Fluxion.Numeric
