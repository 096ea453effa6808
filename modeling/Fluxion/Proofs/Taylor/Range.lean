/-
How far Taylor polynomials go. An expansion about a finite point fails only
where a coefficient cannot be made, and a coefficient is asked for at every
order that is arrived at with a value that counts (`expand_eq_error`,
`coefficient_of_expand`).

In double precision the quotient by a factorial is always finite, but the
factorial itself leaves the range with `171!`. So an expansion fails if a
value from the order 171 on counts, and not otherwise
(`expand_returns_iff`). What a machine's exponential answers is left open;
`Calibrated` settles its value at zero, and there `exp x` has no expansion of
order 171 (`expand_exponential_fails`).
-/
import Fluxion.Proofs.Double.Quotient
import Fluxion.Proofs.Taylor

namespace Fluxion.Taylor

open Fluxion.Double
open Fluxion.Tree (literal literal_eq_ok)
open scoped Nat

/-! ## What an expansion asks for -/

section

variable {α : Type} [Scalar α] {v : String} {point c : α} {t shift : Tree α} {f : Fault α} {n : ℕ}

/-- The derivatives up to order `n` have values at the point, and the last of
them, `c`, does not count as zero. -/
structure Counts (t : Tree α) (v : String) (point : α) (n : ℕ) (c : α) : Prop where
  arrives : ∀ m < n, ∃ b, (t.derivatives Tree.simplify v m).evaluateAt v point = .ok b
  value : (t.derivatives Tree.simplify v n).evaluateAt v point = .ok c
  large : Scalar.gt (Scalar.abs c) tolerance = true

theorem counts_zero : Counts t v point 0 c ↔
    t.evaluateAt v point = .ok c ∧ Scalar.gt (Scalar.abs c) tolerance = true :=
  ⟨fun h => ⟨h.value, h.large⟩, fun h => ⟨fun m hm => absurd hm m.not_lt_zero, h.1, h.2⟩⟩

theorem counts_succ : Counts t v point (n + 1) c ↔
    (∃ b, t.evaluateAt v point = .ok b) ∧ Counts (t.derivative v).simplify v point n c := by
  constructor
  · intro h
    exact ⟨h.arrives 0 (Nat.succ_pos n), fun m hm => h.arrives (m + 1) (Nat.succ_lt_succ hm),
      h.value, h.large⟩
  · rintro ⟨hb, h⟩
    refine ⟨fun m hm => ?_, h.value, h.large⟩
    cases m with
    | zero => exact hb
    | succ m => exact h.arrives m (Nat.lt_of_succ_lt_succ hm)

theorem Counts.evaluates (h : Counts t v point n c) : ∃ b, t.evaluateAt v point = .ok b := by
  cases n with
  | zero => exact ⟨c, h.value⟩
  | succ n => exact (counts_succ.mp h).1

theorem addTerm_eq_error {acc : Tree α} : addTerm acc shift c n = .error f ↔
    Scalar.gt (Scalar.abs c) tolerance = true ∧ coefficient c n = .error f := by
  unfold addTerm
  split
  · next h => simp only [map_eq_error, h, true_and]
  · next h => simp [h]

/-- Only a coefficient fails. By recursion on the orders left. -/
theorem terms_eq_error {left n : ℕ} {d acc : Tree α}
    (h : terms v point shift left n d acc = .error f) :
    ∃ m ≤ left, ∃ c, Counts d v point m c ∧ coefficient c (n + m) = .error f := by
  cases hd : d.evaluateAt v point with
  | error e =>
    rw [terms_of_error hd] at h
    cases h
  | ok b =>
    rw [terms_of_ok hd] at h
    rcases bind_eq_error.mp h with h | ⟨acc', -, h⟩
    · obtain ⟨hlarge, hb⟩ := addTerm_eq_error.mp h
      exact ⟨0, Nat.zero_le left, b, counts_zero.mpr ⟨hd, hlarge⟩, hb⟩
    · cases left with
      | zero => cases h
      | succ left =>
        obtain ⟨m, hm, c, hcounts, hc⟩ := terms_eq_error h
        rw [Nat.add_right_comm] at hc
        exact ⟨m + 1, Nat.succ_le_succ hm, c, counts_succ.mpr ⟨⟨b, hd⟩, hcounts⟩, hc⟩

/-- A coefficient that is asked for has been made, if all went well. By
recursion on the orders left. -/
theorem coefficient_of_terms {left n m : ℕ} {d acc : Tree α} {e : Expansion α}
    (h : terms v point shift left n d acc = .ok e) (hm : m ≤ left)
    (hcounts : Counts d v point m c) : ∃ k, coefficient c (n + m) = .ok k := by
  obtain ⟨b, hd⟩ := hcounts.evaluates
  rw [terms_of_ok hd] at h
  obtain ⟨acc', hacc', h⟩ := bind_eq_ok.mp h
  cases m with
  | zero =>
    obtain ⟨hc, hlarge⟩ := counts_zero.mp hcounts
    cases hd.symm.trans hc
    rw [addTerm, if_pos hlarge] at hacc'
    obtain ⟨k, hk, -⟩ := map_eq_ok.mp hacc'
    exact ⟨k, hk⟩
  | succ m =>
    cases left with
    | zero => exact absurd hm (Nat.not_succ_le_zero m)
    | succ left =>
      obtain ⟨k, hk⟩ :=
        coefficient_of_terms h (Nat.le_of_succ_le_succ hm) (counts_succ.mp hcounts).2
      exact ⟨k, by rwa [Nat.add_right_comm] at hk⟩

theorem exists_shift_eq_ok (hpoint : Scalar.isFinite point = true) :
    ∃ s : Tree α, Taylor.shift v point = .ok s := by
  unfold Taylor.shift
  split
  · exact ⟨_, rfl⟩
  · exact ⟨_, map_eq_ok.mpr ⟨_, literal_eq_ok.mpr ⟨hpoint, rfl⟩, rfl⟩⟩

theorem expand_eq_error {order : ℕ} (hpoint : Scalar.isFinite point = true)
    (h : expand t v point order = .error f) :
    ∃ n ≤ order, ∃ c, Counts t v point n c ∧ coefficient c n = .error f := by
  obtain ⟨s, hs⟩ := exists_shift_eq_ok (v := v) hpoint
  rcases bind_eq_error.mp h with h | ⟨s', -, h⟩
  · rw [hs] at h
    cases h
  · rcases bind_eq_error.mp h with h | ⟨e, -, h⟩
    · simpa only [Nat.zero_add] using terms_eq_error h
    · cases h

theorem coefficient_of_expand {order : ℕ} {e : Expansion α} (h : expand t v point order = .ok e)
    (hn : n ≤ order) (hcounts : Counts t v point n c) : ∃ k, coefficient c n = .ok k := by
  obtain ⟨s, -, h⟩ := bind_eq_ok.mp h
  obtain ⟨e', h, -⟩ := bind_eq_ok.mp h
  simpa only [Nat.zero_add] using coefficient_of_terms h hn hcounts

end

/-! ## Double precision -/

theorem factorial_ne_zero (n : ℕ) : factorial n ≠ 0 := by
  rw [factorial_eq]
  exact Nat.factorial_ne_zero n

theorem log2_factorial_mono {m n : ℕ} (h : m ≤ n) : (factorial m).log2 ≤ (factorial n).log2 := by
  refine (Nat.le_log2 (factorial_ne_zero n)).mpr ((Nat.log2_self_le (factorial_ne_zero m)).trans ?_)
  rw [factorial_eq, factorial_eq]
  exact Nat.factorial_le h

/-- The factorial of 170 has 1020 bits, the next one has 1027. -/
theorem log2_factorial : (factorial 170).log2 = 1019 ∧ (factorial 171).log2 = 1026 := by
  decide +kernel

/-- The coefficient of any finite value, up to the order 170; none beyond. -/
theorem coefficient_double {c : Float} (hc : c.isFinite = true) (n : ℕ) :
    coefficient c n =
      if n ≤ 170 then .ok (.const (Scalar.div c (Scalar.ofNat (factorial n))))
      else .error .integerTooLarge := by
  unfold coefficient
  by_cases hn : n ≤ 170
  · have hlog := log2_factorial_mono hn
    rw [log2_factorial.1] at hlog
    have hone := atLeastOne_ofNat (factorial_ne_zero n) (by omega)
    have hfinite : Scalar.isFinite (Scalar.ofNat (factorial n) : Float) = true :=
      isFinite_of_atLeastOne hone
    rw [if_pos hn, if_pos hfinite]
    exact literal_eq_ok.mpr ⟨isFinite_div hc hone, rfl⟩
  · have hlog := log2_factorial_mono (Nat.lt_of_not_le hn)
    rw [log2_factorial.2] at hlog
    have hinfinite : ¬Scalar.isFinite (Scalar.ofNat (factorial n) : Float) = true :=
      Bool.eq_false_iff.mp (isFinite_ofNat_eq_false (by omega))
    rw [if_neg hn, if_neg hinfinite]

/-- **How far an expansion goes** in double precision. It returns exactly if
no value that it comes to counts from the order 171 on; otherwise the
factorial is out of range. -/
theorem expand_returns_iff {point : Float} (hpoint : point.isFinite = true) (t : Tree Float)
    (v : String) (order : ℕ) :
    ((∃ e, expand t v point order = .ok e) ↔
        ∀ n ≤ order, ∀ c, Counts t v point n c → n ≤ 170) ∧
      ∀ f, expand t v point order = .error f → f = .integerTooLarge := by
  have hcoefficient {n : ℕ} {c : Float} (h : Counts t v point n c) :=
    coefficient_double (Tree.evaluate_eq_ok.mp h.value).2 n
  refine ⟨⟨fun ⟨e, he⟩ n hn c hcounts => ?_, fun h => ?_⟩, fun f hf => ?_⟩
  · obtain ⟨k, hk⟩ := coefficient_of_expand he hn hcounts
    by_contra hlarge
    rw [hcoefficient hcounts, if_neg hlarge] at hk
    cases hk
  · cases he : expand t v point order with
    | ok e => exact ⟨e, rfl⟩
    | error f =>
      obtain ⟨n, hn, c, hcounts, hc⟩ := expand_eq_error hpoint he
      rw [hcoefficient hcounts, if_pos (h n hn c hcounts)] at hc
      cases hc
  · obtain ⟨n, hn, c, hcounts, hc⟩ := expand_eq_error hpoint hf
    rw [hcoefficient hcounts] at hc
    split at hc
    · cases hc
    · exact (Except.error.inj hc).symm

theorem derivatives_eq_self {α : Type} [Scalar α] {t : Tree α} {v : String}
    (h : (t.derivative v).simplify = t) (n : ℕ) : t.derivatives Tree.simplify v n = t := by
  induction n with
  | zero => rfl
  | succ n ih => rw [Tree.derivatives, h, ih]

/-- The values of `x` from the second order on are zero and ask for
nothing. -/
theorem expand_var_returns :
    ∃ e, expand (.var "x" : Tree Float) "x" (Scalar.ofNat 3) 1000 = .ok e := by
  refine (expand_returns_iff (by decide +kernel) (.var "x") "x" 1000).1.mpr
    fun n _ c hcounts => ?_
  by_contra hn
  obtain ⟨m, rfl⟩ : ∃ m, n = m + 2 := ⟨n - 2, by omega⟩
  have hzero : (Tree.var "x" : Tree Float).derivatives Tree.simplify "x" (m + 2) = Tree.zero :=
    derivatives_eq_self rfl m
  have hvalue := hcounts.value
  rw [hzero] at hvalue
  cases hvalue
  exact absurd hcounts.large (by decide +kernel)

/-! ## The exponential -/

/-- The kernels of a machine that has one as the exponential of zero. -/
def calibrated (op : UnaryOp) (a : Float) : Float :=
  match op with
  | .exp => if Scalar.eq a Scalar.zero then Scalar.one else a.exp
  | op => Double.unary op a

/-- The doubles of that machine. -/
def Calibrated : Type := Float

instance : Scalar Calibrated :=
  { (inferInstance : Scalar Float) with unary := calibrated }

def exponential : Tree Calibrated := .unary .exp (.var "x")

theorem derivatives_exponential (n : ℕ) :
    exponential.derivatives Tree.simplify "x" n = exponential :=
  derivatives_eq_self rfl n

theorem evaluateAt_exponential : exponential.evaluateAt "x" Scalar.zero = .ok Scalar.one :=
  rfl

/-- All derivatives of `exp x` are one at zero, and yet the expansion of
order 171 about zero fails. -/
theorem expand_exponential_fails :
    Scalar.isFinite (Scalar.zero : Calibrated) = true ∧
      (∀ n, (exponential.derivatives Tree.simplify "x" n).evaluateAt "x" Scalar.zero =
        .ok Scalar.one) ∧
      expand exponential "x" Scalar.zero 171 = .error .integerTooLarge := by
  have hvalue (n : ℕ) : (exponential.derivatives Tree.simplify "x" n).evaluateAt "x" Scalar.zero =
      .ok Scalar.one := by
    rw [derivatives_exponential, evaluateAt_exponential]
  have hzero : Scalar.isFinite (Scalar.zero : Calibrated) = true := by decide +kernel
  -- division and factorials are those of double precision
  have hcoefficient (n : ℕ) : coefficient (Scalar.one : Calibrated) n =
      if n ≤ 170 then .ok (.const (Scalar.div Scalar.one (Scalar.ofNat (factorial n))))
      else .error .integerTooLarge :=
    coefficient_double (show (Scalar.one : Float).isFinite = true by decide +kernel) n
  have hcounts : Counts exponential "x" Scalar.zero 171 Scalar.one :=
    ⟨fun m _ => ⟨_, hvalue m⟩, hvalue 171, by decide +kernel⟩
  refine ⟨hzero, hvalue, ?_⟩
  cases he : expand exponential "x" Scalar.zero 171 with
  | ok e =>
    obtain ⟨k, hk⟩ := coefficient_of_expand he le_rfl hcounts
    rw [hcoefficient] at hk
    cases hk
  | error f =>
    obtain ⟨n, -, c, hc, hf⟩ := expand_eq_error hzero he
    cases (hvalue n).symm.trans hc.value
    rw [hcoefficient] at hf
    split at hf
    · cases hf
    · cases hf
      rfl

end Fluxion.Taylor
