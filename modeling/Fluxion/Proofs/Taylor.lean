/-
Taylor polynomials in exact numbers. The expansion goes on to the order asked
for, or to the first order whose derivative has no value at the point, and
arrives at the sum of `y / n! * (x - a) ^ n` over the values met on the way,
those that count as zero left out (`terms_eq_ok`, `expand_eq_sum`). For a
polynomial tree all derivatives have values, and when none is small without
being zero the sum is the polynomial itself by Taylor's formula
(`expand_polynomial`).
-/
import Mathlib.Algebra.Polynomial.Taylor
import Fluxion.Taylor
import Fluxion.Proofs.Exact.Rational
import Fluxion.Proofs.Tree.Polynomial

namespace Fluxion.Taylor

open Exact (reading)
open Finset Polynomial
open Fluxion.Tree (Represents derivatives literal literal_eq_ok)
open scoped Nat

/-! ## One step -/

section

variable {α : Type} [Scalar α] {v : String} {point : α} {shift d acc : Tree α}

/-- Without a value the expansion is over, however many orders are left. -/
theorem terms_of_error {f : Fault α} (h : d.evaluateAt v point = .error f) (left n : ℕ) :
    terms v point shift left n d acc = .ok ⟨acc, some n⟩ := by
  unfold terms
  rw [h]
  exact if_pos (Tree.noValue_of_evaluate h)

/-- With a value the term is added, and the next derivative's turn comes if
an order is left. -/
theorem terms_of_ok {value : α} (h : d.evaluateAt v point = .ok value) (left n : ℕ) :
    terms v point shift left n d acc =
      (addTerm acc shift value n >>= fun acc' =>
        match left with
        | 0 => .ok ⟨acc', none⟩
        | left + 1 => terms v point shift left (n + 1) (d.derivative v).simplify acc') := by
  rw [terms, h]
  dsimp only
  cases addTerm acc shift value n with
  | error f => rfl
  | ok acc' => cases left <;> rfl

end

variable {α K : Type} [Field K] [LinearOrder K] [IsStrictOrderedRing K] [Elementary K]
variable [Scalar α] [Exact α K] {v : String} {s A : K[X]} {x y : K}

/-! ## One term -/

theorem factorial_eq (n : ℕ) : factorial n = n ! := by
  induction n with
  | zero => rfl
  | succ n ih => rw [factorial, ih, Nat.factorial_succ]

theorem coefficient_eq_ok {value : α} (h : reading value = some y) (n : ℕ) :
    ∃ c, coefficient value n = .ok (.const c) ∧ reading c = some (y / (n ! : K)) := by
  have hfactorial : reading (Scalar.ofNat (factorial n) : α) = some (n ! : K) := by
    rw [factorial_eq]
    exact Exact.reading_ofNat _
  have hne : (n ! : K) ≠ 0 := Nat.cast_ne_zero.mpr (Nat.factorial_ne_zero n)
  have hquotient := Exact.reading_div h hfactorial hne
  refine ⟨_, ?_, hquotient⟩
  rw [coefficient, if_pos (Exact.isFinite_of_reading hfactorial)]
  exact literal_eq_ok.mpr ⟨Exact.isFinite_of_reading hquotient, rfl⟩

omit [IsStrictOrderedRing K] in
theorem represents_term {c shift : Tree α} {p : K[X]} (hc : c.Represents v p)
    (hs : shift.Represents v s) (n : ℕ) : (term c shift n).Represents v (p * s ^ n) := by
  unfold term
  split
  · next h => rw [beq_iff_eq.mp h, pow_zero, mul_one]; exact hc
  split
  · next h => rw [beq_iff_eq.mp h, pow_one]; exact hc.mul hs
  · exact hc.mul (hs.pow (Exact.reading_ofNat n))

/-- A value, or zero if it counts as zero. -/
def kept (y : K) : K := if 10 ^ (-10 : ℤ) < |y| then y else 0

variable [Exact.Decimals α]

omit [IsStrictOrderedRing K] in
theorem reading_tolerance : reading (tolerance : α) = some (10 ^ (-10 : ℤ) : K) := by
  have h : reading (Scalar.decimal 1 (-10) : α) = some (((1 : ℤ) : K) * 10 ^ (-10 : ℤ)) :=
    Exact.Decimals.reading_decimal 1 (-10)
  rwa [Int.cast_one, one_mul] at h

/-- A step adds the term of its order, which is zero if the value counts as
zero. -/
theorem addTerm_eq_ok {acc shift : Tree α} {value : α} (hacc : acc.Represents v A)
    (hs : shift.Represents v s) (hvalue : reading value = some y) (n : ℕ) :
    ∃ acc', addTerm acc shift value n = .ok acc' ∧
      acc'.Represents v (A + C (kept y / (n ! : K)) * s ^ n) := by
  have htest : Scalar.gt (Scalar.abs value) tolerance = true ↔ 10 ^ (-10 : ℤ) < |y| :=
    Exact.gt_iff (Exact.reading_abs hvalue) reading_tolerance
  unfold addTerm kept
  by_cases hy : 10 ^ (-10 : ℤ) < |y|
  · obtain ⟨c, hc, hread⟩ := coefficient_eq_ok hvalue n
    rw [if_pos (htest.mpr hy), if_pos hy, hc]
    exact ⟨_, rfl, hacc.add (represents_term (.const hread) hs n)⟩
  · rw [if_neg (mt htest.mp hy), if_neg hy, zero_div, C_0, zero_mul, add_zero]
    exact ⟨acc, rfl, hacc⟩

/-! ## The expansion -/

/-- The value at the point of the derivative of order `n`, simplified after
every step, if it can be evaluated there. -/
def derivativeAt? (t : Tree α) (v : String) (point : α) (n : ℕ) : Option K :=
  match (t.derivatives Tree.simplify v n).evaluateAt v point with
  | .ok c => reading c
  | .error _ => none

omit [IsStrictOrderedRing K] [Exact.Decimals α] in
theorem derivativeAt?_eq_some {t : Tree α} {point : α} {n : ℕ} :
    derivativeAt? t v point n = some y ↔
      ∃ c, (t.derivatives Tree.simplify v n).evaluateAt v point = .ok c ∧ reading c = some y := by
  unfold derivativeAt?
  split
  · next c hc => simp [hc]
  · next e he => simp [he]

omit [IsStrictOrderedRing K] [Exact.Decimals α] in
theorem derivativeAt?_eq_none {t : Tree α} {point : α} {n : ℕ}
    (h : derivativeAt? t v point n = none) :
    ∃ e, (t.derivatives Tree.simplify v n).evaluateAt v point = .error e := by
  unfold derivativeAt? at h
  split at h
  · next c hc =>
    obtain ⟨y, hy⟩ := Exact.reading_of_isFinite (Tree.evaluate_eq_ok.mp hc).2
    rw [hy] at h
    cases h
  · next e he => exact ⟨e, he⟩

/-- The expansion is over at the first of the orders left that has no value.
By induction on the number of them. -/
theorem terms_eq_ok {point : α} {shift : Tree α} (hs : shift.Represents v s) (left n : ℕ)
    {k : ℕ} {d acc : Tree α} {A : K[X]} {y : ℕ → K} (hk : k ≤ left + 1)
    (hacc : acc.Represents v A) (hvalues : ∀ m < k, derivativeAt? d v point m = some (y m))
    (hfails : k ≤ left → derivativeAt? d v point k = none) :
    ∃ e, terms v point shift left n d acc = .ok e ∧
      e.stopped = (if k ≤ left then some (n + k) else none) ∧
      e.polynomial.Represents v
        (A + ∑ m ∈ range k, C (kept (y m) / ((n + m)! : K)) * s ^ (n + m)) := by
  induction left generalizing n k d acc A y with
  | zero =>
    cases k with
    | zero =>
      obtain ⟨f, hf⟩ := derivativeAt?_eq_none (hfails (Nat.zero_le _))
      exact ⟨_, terms_of_error hf _ n, rfl, by simpa using hacc⟩
    | succ k =>
      obtain rfl : k = 0 := by omega
      obtain ⟨c, hc, hread⟩ := derivativeAt?_eq_some.mp (hvalues 0 Nat.one_pos)
      obtain ⟨acc', hacc', hrep⟩ := addTerm_eq_ok hacc hs hread n
      refine ⟨⟨acc', none⟩, ?_, rfl, by simpa using hrep⟩
      exact (terms_of_ok hc 0 n).trans (bind_eq_ok.mpr ⟨acc', hacc', rfl⟩)
  | succ left ih =>
    cases k with
    | zero =>
      obtain ⟨f, hf⟩ := derivativeAt?_eq_none (hfails (Nat.zero_le _))
      exact ⟨_, terms_of_error hf _ n, rfl, by simpa using hacc⟩
    | succ k =>
      obtain ⟨c, hc, hread⟩ := derivativeAt?_eq_some.mp (hvalues 0 (Nat.succ_pos k))
      obtain ⟨acc', hacc', hrep⟩ := addTerm_eq_ok hacc hs hread n
      obtain ⟨e, he, hstop, hpoly⟩ := ih (n + 1) (k := k) (d := (d.derivative v).simplify)
        (y := fun m => y (m + 1)) (by omega) hrep
        (fun m hm => hvalues (m + 1) (by omega)) (fun h => hfails (by omega))
      refine ⟨e, ?_, ?_, ?_⟩
      · exact (terms_of_ok hc (left + 1) n).trans (bind_eq_ok.mpr ⟨acc', hacc', he⟩)
      · rw [hstop, Nat.add_assoc, Nat.add_comm 1 k]
        simp only [Nat.add_le_add_iff_right]
      · -- the term just added is the first summand, the rest is shifted by one order
        have hsum : ∑ m ∈ range k, C (kept (y (m + 1)) / ((n + 1 + m)! : K)) * s ^ (n + 1 + m) =
            ∑ m ∈ range k, C (kept (y (m + 1)) / ((n + (m + 1))! : K)) * s ^ (n + (m + 1)) :=
          sum_congr rfl fun m _ => by rw [Nat.add_assoc, Nat.add_comm 1 m]
        rw [sum_range_succ', Nat.add_zero, add_comm (∑ m ∈ range k, _), ← add_assoc, ← hsum]
        exact hpoly

omit [IsStrictOrderedRing K] [Exact.Decimals α] in
theorem shift_eq_ok {point : α} (hx : reading point = some x) :
    ∃ t : Tree α, shift v point = .ok t ∧ t.Represents v (X - C x) := by
  unfold shift
  by_cases hzero : Scalar.eq point Scalar.zero = true
  · rw [if_pos hzero, (Exact.eq_iff hx Exact.reading_zero).mp hzero, C_0, sub_zero]
    exact ⟨_, rfl, .var⟩
  · have hliteral : (literal point : Except (Fault α) (Tree α)) = .ok (.const point) :=
      literal_eq_ok.mpr ⟨Exact.isFinite_of_reading hx, rfl⟩
    rw [if_neg hzero, hliteral]
    exact ⟨_, rfl, .sub .var (.const hx)⟩

variable [Elementary.Natural K]

theorem expand_represents {t : Tree α} {point : α} {order k : ℕ} {y : ℕ → K}
    (hx : reading point = some x) (hk : k ≤ order + 1)
    (hvalues : ∀ m < k, derivativeAt? t v point m = some (y m))
    (hfails : k ≤ order → derivativeAt? t v point k = none) :
    ∃ e, expand t v point order = .ok e ∧ e.stopped = (if k ≤ order then some k else none) ∧
      e.polynomial.Represents v
        (∑ m ∈ range k, C (kept (y m) / (m ! : K)) * (X - C x) ^ m) := by
  obtain ⟨s, hs, hshift⟩ := shift_eq_ok (v := v) hx
  have hzero : (Tree.zero : Tree α).Represents v (0 : K[X]) := by
    have h := Represents.const (v := v) (Exact.reading_zero (α := α))
    rwa [C_0] at h
  obtain ⟨e, he, hstop, hpoly⟩ := terms_eq_ok hshift order 0 hk hzero hvalues hfails
  simp only [zero_add] at hstop hpoly
  refine ⟨{ e with polynomial := e.polynomial.simplify }, ?_, hstop, hpoly.simplify⟩
  exact bind_eq_ok.mpr ⟨s, hs, bind_eq_ok.mpr ⟨e, he, rfl⟩⟩

theorem expand_eq_ok {t : Tree α} {point : α} {order : ℕ} {y : ℕ → K}
    (hx : reading point = some x)
    (hvalues : ∀ m ≤ order, ∃ c, (t.derivatives Tree.simplify v m).evaluateAt v point = .ok c ∧
      reading c = some (y m)) :
    ∃ e, expand t v point order = .ok e ∧ e.stopped = none ∧
      e.polynomial.Represents v
        (∑ m ∈ range (order + 1), C (kept (y m) / (m ! : K)) * (X - C x) ^ m) := by
  obtain ⟨e, he, hstop, hpoly⟩ := expand_represents hx le_rfl
    (fun m hm => derivativeAt?_eq_some.mpr (hvalues m (Nat.le_of_lt_succ hm)))
    (fun h => absurd h (Nat.not_succ_le_self order))
  exact ⟨e, he, by rw [hstop, if_neg (Nat.not_succ_le_self order)], hpoly⟩

/-! ## The sum -/

/-- The first order at which evaluation fails; one more than `order` if it
does not up to there. -/
def reach (t : Tree α) (v : String) (point : α) (order : ℕ) : ℕ :=
  Nat.findGreatest (fun k => ∀ n < k, (derivativeAt? t v point n).isSome = true) (order + 1)

omit [IsStrictOrderedRing K] [Exact.Decimals α] [Elementary.Natural K] in
theorem isSome_of_lt_reach {t : Tree α} {point : α} {order n : ℕ}
    (h : n < reach t v point order) : (derivativeAt? t v point n).isSome = true := by
  have hspec : ∀ n < reach t v point order, (derivativeAt? t v point n).isSome = true :=
    Nat.findGreatest_spec (P := fun k => ∀ n < k, (derivativeAt? t v point n).isSome = true)
      (Nat.zero_le _) fun n hn => absurd hn n.not_lt_zero
  exact hspec n h

omit [IsStrictOrderedRing K] [Exact.Decimals α] [Elementary.Natural K] in
theorem derivativeAt?_reach {t : Tree α} {point : α} {order : ℕ}
    (h : reach t v point order ≤ order) :
    derivativeAt? t v point (reach t v point order) = none := by
  by_contra hsome
  rw [← Ne, Option.ne_none_iff_isSome] at hsome
  have hnext : reach t v point order + 1 ≤ reach t v point order := by
    refine Nat.le_findGreatest (Nat.succ_le_succ h) fun n hn => ?_
    rcases Nat.lt_succ_iff_lt_or_eq.mp hn with hn | rfl
    · exact isSome_of_lt_reach hn
    · exact hsome
  omega

/-- **Taylor's sum.** The expansion about a finite point always succeeds. It
is a polynomial in the variable alone, and its value is the sum over the
orders before the first that fails, small values left out. -/
theorem expand_eq_sum {point : α} (hx : reading point = some x) (t : Tree α) (v : String)
    (order : ℕ) :
    ∃ e, expand t v point order = .ok e ∧ (∀ z ∈ e.polynomial.names, z = v) ∧
      ∀ env : String → K, e.polynomial.exact env =
        some (∑ n ∈ range (reach t v point order) with
            10 ^ (-10 : ℤ) < |(derivativeAt? t v point n).getD 0|,
          (derivativeAt? t v point n).getD 0 / (n ! : K) * (env v - x) ^ n) := by
  have hvalues : ∀ n < reach t v point order,
      derivativeAt? t v point n = some ((derivativeAt? t v point n).getD 0) := by
    intro n hn
    obtain ⟨y, hy⟩ := Option.isSome_iff_exists.mp (isSome_of_lt_reach hn)
    rw [hy, Option.getD_some]
  obtain ⟨e, he, -, hpoly⟩ :=
    expand_represents hx (Nat.findGreatest_le _) hvalues derivativeAt?_reach
  refine ⟨e, he, hpoly.names, fun env => ?_⟩
  rw [hpoly.exact env, sum_filter, eval_finsetSum]
  congr 1
  refine sum_congr rfl fun n _ => ?_
  rw [eval_mul, eval_C, eval_pow, eval_sub, eval_X, eval_C]
  unfold kept
  split
  · rfl
  · rw [zero_div, zero_mul]

def reciprocal : Tree Rational := .binary .pow (.var "x") (.const ⟨some (-1)⟩)

/-- About one and up to the second order. -/
theorem expand_reciprocal :
    ∃ e, expand reciprocal "x" ⟨some 1⟩ 2 = .ok e ∧ (∀ z ∈ e.polynomial.names, z = "x") ∧
      ∀ env : String → ℚ,
        e.polynomial.exact env = some (1 - (env "x" - 1) + (env "x" - 1) ^ 2) := by
  have h₀ : derivativeAt? reciprocal "x" ⟨some 1⟩ 0 = some 1 := by decide +kernel
  have h₁ : derivativeAt? reciprocal "x" ⟨some 1⟩ 1 = some (-1) := by decide +kernel
  have h₂ : derivativeAt? reciprocal "x" ⟨some 1⟩ 2 = some 2 := by decide +kernel
  have hreach : reach reciprocal "x" ⟨some 1⟩ 2 = 3 := by
    refine le_antisymm (Nat.findGreatest_le 3) (Nat.le_findGreatest le_rfl fun n hn => ?_)
    interval_cases n
    · rw [h₀]; rfl
    · rw [h₁]; rfl
    · rw [h₂]; rfl
  have hpoint : reading (⟨some 1⟩ : Rational) = some 1 := rfl
  obtain ⟨e, he, hnames, hsum⟩ := expand_eq_sum hpoint reciprocal "x" 2
  refine ⟨e, he, hnames, fun env => ?_⟩
  rw [hsum, hreach, sum_filter, sum_range_succ, sum_range_succ, sum_range_one, h₀, h₁, h₂]
  norm_num [Nat.factorial]
  ring

/-! ## Polynomials -/

omit [LinearOrder K] [IsStrictOrderedRing K] [Elementary K] [Elementary.Natural K] in
/-- Taylor's formula. -/
theorem sum_derivatives_eq [CharZero K] {q : K[X]} {N : ℕ} (h : q.natDegree ≤ N) (x : K) :
    ∑ m ∈ range (N + 1), C ((Polynomial.derivative^[m] q).eval x / (m ! : K)) * (X - C x) ^ m =
      q := by
  have hterm (m : ℕ) :
      (Polynomial.derivative^[m] q).eval x / (m ! : K) = (taylor x q).coeff m := by
    have hne : (m ! : K) ≠ 0 := Nat.cast_ne_zero.mpr (Nat.factorial_ne_zero m)
    rw [taylor_coeff, ← factorial_smul_hasseDeriv, LinearMap.smul_apply, eval_smul, nsmul_eq_mul,
      mul_div_cancel_left₀ _ hne]
  simp only [hterm]
  have hdegree : (taylor x q).natDegree < N + 1 := by
    rw [natDegree_taylor]
    omega
  have hsum := sum_over_range' (taylor x q) (f := fun m a => C a * (X - C x) ^ m)
    (fun m => by rw [C_0, zero_mul]) (N + 1) hdegree
  rw [← hsum, sum_taylor_eq]

/-- **Taylor polynomials reproduce polynomials.** -/
theorem expand_polynomial {p : Tree α} {q : K[X]} {point : α} {order : ℕ} (hp : p.Represents v q)
    (hx : reading point = some x) (horder : q.natDegree ≤ order)
    (hlarge : ∀ n, (Polynomial.derivative^[n] q).eval x ≠ 0 →
      10 ^ (-10 : ℤ) < |(Polynomial.derivative^[n] q).eval x|) :
    ∃ e, expand p v point order = .ok e ∧ e.stopped = none ∧
      ∀ env, ∃ z, p.exact env = some z ∧ e.polynomial.exact env = some z := by
  have hkept (n : ℕ) : kept ((Polynomial.derivative^[n] q).eval x) =
      (Polynomial.derivative^[n] q).eval x := by
    unfold kept
    by_cases hzero : (Polynomial.derivative^[n] q).eval x = 0
    · rw [hzero, ite_self]
    · rw [if_pos (hlarge n hzero)]
  obtain ⟨e, he, hstop, hpoly⟩ :=
    expand_eq_ok hx fun m (_ : m ≤ order) => (hp.derivatives m).evaluateAt hx
  simp only [hkept, sum_derivatives_eq horder x] at hpoly
  exact ⟨e, he, hstop, fun env => ⟨_, hp.exact env, hpoly.exact env⟩⟩

/-- `x ^ 0 * (x ^ 2 - 3)`. -/
def shiftedSquare : Tree Rational :=
  .binary .mul (.binary .pow (.var "x") (.const ⟨some 0⟩))
    (.binary .sub (.binary .pow (.var "x") (.const ⟨some 2⟩)) (.const ⟨some 3⟩))

theorem represents_shiftedSquare :
    shiftedSquare.Represents "x" (X ^ 0 * (X ^ 2 - C 3) : ℚ[X]) :=
  (Represents.var.pow (by simp [reading])).mul
    ((Represents.var.pow (n := 2) (by simp [reading])).sub (.const rfl))

/-- About two, with an order above the degree. -/
theorem expand_shiftedSquare :
    ∃ e, expand shiftedSquare "x" ⟨some 2⟩ 3 = .ok e ∧ e.stopped = none ∧
      ∀ env : String → ℚ, ∃ z, shiftedSquare.exact env = some z ∧
        e.polynomial.exact env = some z := by
  have hdegree : (X ^ 0 * (X ^ 2 - C 3) : ℚ[X]).natDegree = 2 := by compute_degree!
  refine expand_polynomial represents_shiftedSquare rfl (by rw [hdegree]; norm_num) ?_
  intro n hne
  match n with
  | 0 => norm_num
  | 1 => norm_num [Polynomial.derivative_pow]
  | 2 => norm_num [Polynomial.derivative_pow]
  | n + 3 =>
    rw [iterate_derivative_eq_zero (by rw [hdegree]; omega), eval_zero] at hne
    exact absurd rfl hne

end Fluxion.Taylor
