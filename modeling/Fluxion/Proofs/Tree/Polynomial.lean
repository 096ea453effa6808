/-
Polynomial trees: literals, variables, sums, differences, products,
opposites and powers with a natural exponent that is written as a literal.
Each stands for an element of a ring, once its variables are given elements
there (`Denotes`): a polynomial in one variable, in several, or a number.

Simplification changes the tree and not the element. The derivative is a
polynomial tree again after it has been simplified, and stands for the
derivative of the element; before that it need not be one, since the rule for
powers takes `f ^ 0` to `(0 * f ^ (-1)) * f'`, where the zero has yet to
absorb the rest.
-/
import Mathlib.Algebra.Polynomial.Derivation
import Fluxion.Proofs.Evaluation.Point
import Fluxion.Proofs.Exact.Order

namespace Fluxion.Tree

open Exact (reading)

variable {α K : Type} [Field K] [LinearOrder K] [Elementary K] [Scalar α] [Exact α K]

/-! ## Products with zero -/

variable {a b c : α} {t : Tree α}

theorem reading_zero_fold (ha : reading a = some (0 : K)) (hb : Scalar.isFinite b = true)
    (hc : foldBinary .mul a b = some c) : reading c = some (0 : K) := by
  obtain ⟨y, hb⟩ := Exact.reading_of_isFinite hb
  have hprod : BinaryOp.mul.exact 0 y = some (0 : K) := congrArg some (zero_mul y)
  exact (reading_foldBinary hc ha hb).trans hprod

/-- Zero absorbs whatever it multiplies, a polynomial tree or not. -/
theorem scale_zero (ha : reading a = some (0 : K)) (ht : t.Over fun _ => True) :
    ∃ c, scale a t = .const c ∧ reading c = some (0 : K) := by
  have heq : Scalar.eq a Scalar.zero = true := (Exact.eq_iff ha Exact.reading_zero).mpr rfl
  unfold scale
  split
  · split
    · next c hc => exact ⟨c, rfl, reading_zero_fold ha ht hc⟩
    · exact ⟨_, by simp [unfoldedProduct, heq, zero], Exact.reading_zero⟩
  · exact ⟨_, if_pos heq, Exact.reading_zero⟩
  · exact ⟨_, if_pos heq, Exact.reading_zero⟩

theorem simplifyBinary_zero_mul (ha : reading a = some (0 : K)) (ht : t.Over fun _ => True) :
    ∃ c, simplifyBinary .mul (.const a) t = .const c ∧ reading c = some (0 : K) := by
  unfold simplifyBinary
  split
  · next hb =>
    cases hb
    split
    · next c hc => exact ⟨c, rfl, reading_zero_fold ha ht hc⟩
    · exact scale_zero ha ht
  · exact scale_zero ha ht

/-! ## Polynomial trees -/

variable {R : Type} [CommRing R] [Algebra K R]

/-- A polynomial tree and the ring element it stands for, with `ρ` for the
variables. -/
inductive Denotes (ρ : String → R) : Tree α → R → Prop
  | var (x : String) : Denotes ρ (.var x) (ρ x)
  | const {a : α} {x : K} (ha : reading a = some x) : Denotes ρ (.const a) (algebraMap K R x)
  | add {l r : Tree α} {p q : R} (hl : Denotes ρ l p) (hr : Denotes ρ r q) :
      Denotes ρ (.binary .add l r) (p + q)
  | sub {l r : Tree α} {p q : R} (hl : Denotes ρ l p) (hr : Denotes ρ r q) :
      Denotes ρ (.binary .sub l r) (p - q)
  | mul {l r : Tree α} {p q : R} (hl : Denotes ρ l p) (hr : Denotes ρ r q) :
      Denotes ρ (.binary .mul l r) (p * q)
  | neg {u : Tree α} {p : R} (hu : Denotes ρ u p) : Denotes ρ (.unary .neg u) (-p)
  | pow {u : Tree α} {p : R} {a : α} {n : ℕ} (hu : Denotes ρ u p)
      (ha : reading a = some (n : K)) : Denotes ρ (.binary .pow u (.const a)) (p ^ n)

namespace Denotes

variable {ρ : String → R} {u l r : Tree α} {p q : R} {x y : K} {n : ℕ}

/-! ## Literals and values -/

theorem const_iff (ha : reading a = some x) :
    (Tree.const a).Denotes ρ q ↔ q = algebraMap K R x := by
  constructor
  · intro h
    cases h with
    | const ha' => rw [Option.some.inj (ha.symm.trans ha')]
  · rintro rfl
    exact .const ha

theorem zero : (Tree.zero : Tree α).Denotes ρ 0 :=
  (const_iff Exact.reading_zero).mpr (map_zero _).symm

theorem one : (Tree.one : Tree α).Denotes ρ 1 :=
  (const_iff Exact.reading_one).mpr (map_one _).symm

theorem of_isLiteral (h : t.isLiteral n = true) (ht : t.Denotes ρ q) : q = n := by
  cases t <;> simp only [isLiteral, Bool.false_eq_true] at h
  cases ht with
  | const ha => rw [(Exact.eq_iff ha (Exact.reading_ofNat n)).mp h, map_natCast]

theorem over_true (h : t.Denotes ρ q) : t.Over fun _ => True := by
  induction h with
  | var x => trivial
  | const ha => exact Exact.isFinite_of_reading ha
  | add _ _ hl hr => exact ⟨hl, hr⟩
  | sub _ _ hl hr => exact ⟨hl, hr⟩
  | mul _ _ hl hr => exact ⟨hl, hr⟩
  | neg _ hu => exact hu
  | pow _ ha hu => exact ⟨hu, Exact.isFinite_of_reading ha⟩

theorem exact_literals [Elementary.Natural K] {op : BinaryOp} (ha : reading a = some x)
    (hc : reading c = some y) (h : (binary op (.const a) (.const c)).Denotes ρ q) :
    ∃ z, op.exact x y = some z ∧ q = algebraMap K R z := by
  cases h with
  | add hl hr =>
    refine ⟨x + y, rfl, ?_⟩
    rw [(const_iff ha).mp hl, (const_iff hc).mp hr, map_add]
  | sub hl hr =>
    refine ⟨x - y, rfl, ?_⟩
    rw [(const_iff ha).mp hl, (const_iff hc).mp hr, map_sub]
  | mul hl hr =>
    refine ⟨x * y, rfl, ?_⟩
    rw [(const_iff ha).mp hl, (const_iff hc).mp hr, map_mul]
  | pow hl hn =>
    obtain rfl := Option.some.inj (hc.symm.trans hn)
    refine ⟨x ^ _, Elementary.Natural.power_natCast x _, ?_⟩
    rw [(const_iff ha).mp hl, map_pow]

/-- A homomorphism to the numbers gives the exact value. -/
theorem exact [Elementary.Natural K] (h : t.Denotes ρ q) (φ : R →ₐ[K] K) :
    t.exact (fun x => φ (ρ x)) = some (φ q) := by
  induction h with
  | var x => rfl
  | const ha => rw [exact_const, ha, φ.commutes]; rfl
  | add _ _ hl hr => exact exact_add_eq_some.mpr ⟨_, _, hl, hr, (map_add φ _ _).symm⟩
  | sub _ _ hl hr => exact exact_sub_eq_some.mpr ⟨_, _, hl, hr, (map_sub φ _ _).symm⟩
  | mul _ _ hl hr => exact exact_mul_eq_some.mpr ⟨_, _, hl, hr, (map_mul φ _ _).symm⟩
  | neg _ hu => exact exact_neg_eq_some.mpr ⟨_, hu, (map_neg φ _).symm⟩
  | pow _ ha hu =>
    refine exact_pow_eq_some.mpr ⟨_, _, hu, ha, ?_⟩
    rw [Elementary.Natural.power_natCast, map_pow]

/-! ## Simplification -/

protected theorem negate (h : u.Denotes ρ q) : (negate u).Denotes ρ (-q) := by
  unfold Tree.negate
  split
  · cases h with
    | neg hu => rwa [neg_neg]
  · cases h with
    | const ha => rw [← map_neg]; exact .const (Exact.reading_neg ha)
  · exact .neg h

theorem scale (hc : reading c = some x) (ht : t.Denotes ρ q) :
    (Tree.scale c t).Denotes ρ (algebraMap K R x * q) := by
  fun_induction Tree.scale c t generalizing x q with
  | case1 c a r hr =>
    cases ht with
    | const ha =>
      rw [← map_mul]
      exact .const ((reading_foldBinary hr hc ha).trans rfl)
  | case2 c a hr =>
    cases ht with
    | const ha =>
      -- exact products are finite, so the literals would have been folded
      have hfin : Scalar.isFinite (Scalar.binary .mul c a) = true :=
        Exact.isFinite_of_reading (Exact.reading_mul hc ha)
      simp [Tree.foldBinary, Scalar.finite?, hfin] at hr
  | case3 c a f h => rw [reading_eq_zero h hc, map_zero, zero_mul]; exact .zero
  | case4 c a f _ h => rw [reading_eq_one h hc, map_one, one_mul]; exact ht
  | case5 c a f _ _ h =>
    rw [reading_eq_neg_one h hc, map_neg, map_one, neg_one_mul]; exact ht.negate
  | case6 c a f _ _ _ r hr ih =>
    cases ht with
    | mul ha hf =>
      cases ha with
      | const ha =>
        rw [← mul_assoc, ← map_mul]
        exact ih ((reading_foldBinary hr hc ha).trans rfl) hf
  | case7 c a f _ _ _ hr => exact .mul (.const hc) ht
  | case8 c t _ _ h => rw [reading_eq_zero h hc, map_zero, zero_mul]; exact .zero
  | case9 c t _ _ _ h => rw [reading_eq_one h hc, map_one, one_mul]; exact ht
  | case10 c t _ _ _ _ h =>
    rw [reading_eq_neg_one h hc, map_neg, map_one, neg_one_mul]; exact ht.negate
  | case11 c t _ _ _ _ _ => exact .mul (.const hc) ht

theorem product (hl : l.Denotes ρ p) (hr : r.Denotes ρ q) :
    (Tree.product l r).Denotes ρ (p * q) := by
  unfold Tree.product
  split
  · cases hl with
    | const ha => exact scale ha hr
  · cases hr with
    | const ha => rw [mul_comm]; exact scale ha hl
  · exact .mul hl hr

theorem sum (hl : l.Denotes ρ p) (hr : r.Denotes ρ q) : (Tree.sum l r).Denotes ρ (p + q) := by
  unfold Tree.sum
  split
  · next h => rw [of_isLiteral h hr, Nat.cast_zero, add_zero]; exact hl
  split
  · next h => rw [of_isLiteral h hl, Nat.cast_zero, zero_add]; exact hr
  · exact .add hl hr

variable [IsStrictOrderedRing K]

/-- Trees that are the same node by node stand for the same element. -/
theorem eq_of_same (h : t.same u = true) (ht : t.Denotes ρ p) (hu : u.Denotes ρ q) : p = q := by
  induction ht generalizing u q with
  | var x =>
    cases hu <;> simp only [same, Bool.false_eq_true, beq_iff_eq] at h
    rw [h]
  | const ha =>
    cases hu <;> simp only [same, Bool.false_eq_true] at h
    next hb => rw [(Exact.eq_iff ha hb).mp h]
  | add _ _ hl hr =>
    cases hu <;> simp only [same, Bool.false_eq_true, Bool.and_eq_true, beq_iff_eq, reduceCtorEq,
      false_and, true_and] at h
    next hl' hr' => rw [hl h.1 hl', hr h.2 hr']
  | sub _ _ hl hr =>
    cases hu <;> simp only [same, Bool.false_eq_true, Bool.and_eq_true, beq_iff_eq, reduceCtorEq,
      false_and, true_and] at h
    next hl' hr' => rw [hl h.1 hl', hr h.2 hr']
  | mul _ _ hl hr =>
    cases hu <;> simp only [same, Bool.false_eq_true, Bool.and_eq_true, beq_iff_eq, reduceCtorEq,
      false_and, true_and] at h
    next hl' hr' => rw [hl h.1 hl', hr h.2 hr']
  | neg _ hu' =>
    cases hu <;> simp only [same, Bool.false_eq_true, Bool.and_eq_true, true_and, beq_self_eq_true]
      at h
    next hv => rw [hu' h hv]
  | pow _ ha hu' =>
    cases hu <;> simp only [same, Bool.false_eq_true, Bool.and_eq_true, beq_iff_eq, reduceCtorEq,
      false_and, true_and] at h
    next hv hb =>
      rw [hu' h.1 hv, Nat.cast_injective ((Exact.eq_iff ha hb).mp h.2)]

theorem difference (hl : l.Denotes ρ p) (hr : r.Denotes ρ q) :
    (Tree.difference l r).Denotes ρ (p - q) := by
  unfold Tree.difference
  split
  · next h => rw [of_isLiteral h hr, Nat.cast_zero, sub_zero]; exact hl
  split
  · next h => rw [of_isLiteral h hl, Nat.cast_zero, zero_sub]; exact hr.negate
  split
  · next h => rw [eq_of_same (same_of_equal h) hl hr, sub_self]; exact .zero
  · exact .sub hl hr

theorem power (hu : u.Denotes ρ p) (ha : reading a = some (n : K)) :
    (Tree.power u (.const a)).Denotes ρ (p ^ n) := by
  have hexponent {m : ℕ} (h : (Tree.const a).isLiteral m = true) : n = m :=
    Nat.cast_injective ((Exact.eq_iff ha (Exact.reading_ofNat m)).mp h)
  unfold Tree.power
  split
  · next h => rw [hexponent h, pow_zero]; exact .one
  split
  · next h => rw [hexponent h, pow_one]; exact hu
  split
  · next h => rw [of_isLiteral h hu, Nat.cast_one, one_pow]; exact .one
  · exact .pow hu ha

variable [Elementary.Natural K]

omit [IsStrictOrderedRing K] in
/-- Two literals are folded to the literal they stand for. -/
theorem fold {op : BinaryOp} {d : α} (h : (binary op (.const a) (.const c)).Denotes ρ q)
    (hd : foldBinary op a c = some d) : (Tree.const d).Denotes ρ q := by
  obtain ⟨hafin, hcfin⟩ := h.over_true
  obtain ⟨x, ha⟩ := Exact.reading_of_isFinite hafin
  obtain ⟨y, hc⟩ := Exact.reading_of_isFinite hcfin
  obtain ⟨z, hz, rfl⟩ := exact_literals ha hc h
  exact .const ((reading_foldBinary hd ha hc).trans hz)

omit [Elementary.Natural K] in
theorem combine {op : BinaryOp} (h : (binary op l r).Denotes ρ q) :
    (Tree.combine op l r).Denotes ρ q := by
  cases h with
  | add hl hr => exact hl.sum hr
  | sub hl hr => exact hl.difference hr
  | mul hl hr => exact hl.product hr
  | pow hu ha => exact hu.power ha

theorem simplifyBinary {op : BinaryOp} (h : (binary op l r).Denotes ρ q) :
    (Tree.simplifyBinary op l r).Denotes ρ q := by
  unfold Tree.simplifyBinary
  split
  · split
    · next hd => exact h.fold hd
    · exact h.combine
  · exact h.combine

/-- **Simplification keeps what a tree stands for.** -/
protected theorem simplify (h : t.Denotes ρ q) : t.simplify.Denotes ρ q := by
  induction h with
  | var x => exact .var x
  | const ha => exact .const ha
  | add _ _ hl hr => exact simplifyBinary (.add hl hr)
  | sub _ _ hl hr => exact simplifyBinary (.sub hl hr)
  | mul _ _ hl hr => exact simplifyBinary (.mul hl hr)
  | neg _ hu => exact hu.negate
  | pow _ ha hu => exact simplifyBinary (.pow hu ha)

/-! ## Derivatives -/

variable {v : String} {D : Derivation K R R}

/-- The derivative of a power is simplified to a polynomial tree, also where
the exponent is lowered below zero. -/
theorem simplify_powerRule {u' : Tree α} (hu : u.Denotes ρ p) (hu' : u'.simplify.Denotes ρ q)
    (hover : u'.Over fun _ => True) (ha : reading a = some (n : K)) :
    (powerRule v u (.const a) u' Tree.zero).simplify.Denotes ρ (n * p ^ (n - 1) * q) := by
  have hlowered : reading (Scalar.sub a Scalar.one) = some ((n : K) - 1) :=
    Exact.reading_sub ha Exact.reading_one
  have hrule : (powerRule v u (.const a) u' Tree.zero).simplify =
      Tree.simplifyBinary .mul (Tree.simplifyBinary .mul (.const a)
        (Tree.binary .pow u (.const (Scalar.sub a Scalar.one))).simplify) u'.simplify := rfl
  rw [hrule]
  cases n with
  | zero =>
    rw [Nat.cast_zero] at ha
    have hpow : (Tree.binary .pow u (.const (Scalar.sub a Scalar.one))).simplify.Over
        fun _ => True := over_simplify ⟨hu.over_true, Exact.isFinite_of_reading hlowered⟩
    obtain ⟨c, hc, hread⟩ := simplifyBinary_zero_mul ha hpow
    obtain ⟨d, hd, hread'⟩ := simplifyBinary_zero_mul hread (over_simplify hover)
    rw [hc, hd, Nat.cast_zero, zero_mul, zero_mul]
    exact (const_iff hread').mpr (map_zero _).symm
  | succ n =>
    rw [Nat.cast_add_one, add_sub_cancel_right] at hlowered
    have hcoeff : (Tree.const a).Denotes ρ ((n + 1 : ℕ) : R) :=
      (const_iff ha).mpr (map_natCast _ _).symm
    have hpow := (Denotes.pow hu hlowered).simplify
    exact simplifyBinary (.mul (simplifyBinary (.mul hcoeff hpow)) hu')

/-- **The derivative of a polynomial tree**, once it has been simplified. -/
protected theorem derivative (h : t.Denotes ρ q)
    (hD : ∀ x ∈ t.names, D (ρ x) = if x = v then 1 else 0) :
    (t.derivative v).simplify.Denotes ρ (D q) := by
  induction h with
  | var x =>
    rw [hD x (List.mem_singleton_self x)]
    by_cases hx : x = v
    · rw [if_pos hx, Tree.derivative, if_pos (beq_iff_eq.mpr hx)]; exact .one
    · rw [if_neg hx, Tree.derivative, if_neg (mt beq_iff_eq.mp hx)]; exact .zero
  | const ha => rw [D.map_algebraMap]; exact .zero
  | add _ _ hl hr =>
    have hl := hl fun x hx => hD x (List.mem_append_left _ hx)
    have hr := hr fun x hx => hD x (List.mem_append_right _ hx)
    rw [map_add]
    exact simplifyBinary (.add hl hr)
  | sub _ _ hl hr =>
    have hl := hl fun x hx => hD x (List.mem_append_left _ hx)
    have hr := hr fun x hx => hD x (List.mem_append_right _ hx)
    rw [map_sub]
    exact simplifyBinary (.sub hl hr)
  | @mul l r p q hl hr hl' hr' =>
    have hl' := hl' fun x hx => hD x (List.mem_append_left _ hx)
    have hr' := hr' fun x hx => hD x (List.mem_append_right _ hx)
    have hleibniz : D (p * q) = D p * q + p * D q := by
      rw [D.leibniz, smul_eq_mul, smul_eq_mul, add_comm, mul_comm q]
    rw [hleibniz]
    exact simplifyBinary (.add (simplifyBinary (.mul hl' hr.simplify))
      (simplifyBinary (.mul hl.simplify hr')))
  | neg _ hu =>
    rw [map_neg]
    exact (hu hD).negate
  | @pow u p a n hu ha hu' =>
    have hu' := hu' fun x hx => hD x (List.mem_append_left _ hx)
    rw [D.leibniz_pow, nsmul_eq_mul, smul_eq_mul, ← mul_assoc]
    exact simplify_powerRule (v := v) hu hu' (over_derivative hu.over_true) ha

end Denotes

/-! ## One variable -/

section Univariate

open Polynomial

/-- A polynomial tree in `v` alone, and its polynomial. -/
structure Represents (v : String) (t : Tree α) (q : K[X]) : Prop where
  denotes : t.Denotes (fun _ => X) q
  names : ∀ y ∈ t.names, y = v

namespace Represents

variable {v : String} {l r : Tree α} {p q : K[X]} {x : K} {n : ℕ}

theorem var : (Tree.var v : Tree α).Represents v X :=
  ⟨.var v, fun _ => List.mem_singleton.mp⟩

theorem const (ha : reading a = some x) : (Tree.const a).Represents v (C x) :=
  ⟨.const ha, fun _ h => absurd h List.not_mem_nil⟩

theorem add (hl : l.Represents v p) (hr : r.Represents v q) :
    (Tree.binary .add l r).Represents v (p + q) :=
  ⟨.add hl.denotes hr.denotes, fun y hy => (List.mem_append.mp hy).elim (hl.names y) (hr.names y)⟩

theorem sub (hl : l.Represents v p) (hr : r.Represents v q) :
    (Tree.binary .sub l r).Represents v (p - q) :=
  ⟨.sub hl.denotes hr.denotes, fun y hy => (List.mem_append.mp hy).elim (hl.names y) (hr.names y)⟩

theorem mul (hl : l.Represents v p) (hr : r.Represents v q) :
    (Tree.binary .mul l r).Represents v (p * q) :=
  ⟨.mul hl.denotes hr.denotes, fun y hy => (List.mem_append.mp hy).elim (hl.names y) (hr.names y)⟩

theorem pow (h : t.Represents v q) (ha : reading a = some (n : K)) :
    (Tree.binary .pow t (.const a)).Represents v (q ^ n) :=
  ⟨.pow h.denotes ha, fun y hy => (List.mem_append.mp hy).elim (h.names y)
    fun h => absurd h List.not_mem_nil⟩

theorem over_eq (h : t.Represents v q) : t.Over (· = v) :=
  over_iff.mpr ⟨(over_iff.mp h.denotes.over_true).1, h.names⟩

protected theorem exact [Elementary.Natural K] (h : t.Represents v q) (env : String → K) :
    t.exact env = some (q.eval (env v)) := by
  have hvalue := h.denotes.exact (aeval (env v))
  rw [coe_aeval_eq_eval] at hvalue
  rw [← hvalue]
  refine exact_congr fun y hy => ?_
  rw [h.names y hy, eval_X]

/-- It can be evaluated everywhere. -/
theorem evaluateAt [Elementary.Natural K] (h : t.Represents v q) (ha : reading a = some x) :
    ∃ c, t.evaluateAt v a = .ok c ∧ reading c = some (q.eval x) := by
  have hvalue : t.exact (fun _ => x) = some (q.eval x) := h.exact fun _ => x
  obtain ⟨c, hc, hread⟩ := evaluateAt_of_defined ha h.over_eq (defined_of_exact hvalue)
  rw [worth_eq hvalue] at hread
  exact ⟨c, hc, hread⟩

variable [IsStrictOrderedRing K] [Elementary.Natural K]

protected theorem simplify (h : t.Represents v q) : t.simplify.Represents v q :=
  ⟨h.denotes.simplify, (over_iff.mp (over_simplify h.over_eq)).2⟩

protected theorem derivative (h : t.Represents v q) :
    (t.derivative v).simplify.Represents v (Polynomial.derivative q) := by
  have hD : ∀ x ∈ t.names, derivative' (X : K[X]) = if x = v then 1 else 0 := by
    intro x hx
    rw [if_pos (h.names x hx)]
    exact derivative_X
  exact ⟨h.denotes.derivative hD, (over_iff.mp (over_simplify (over_derivative h.over_eq))).2⟩

theorem derivatives (n : ℕ) (h : t.Represents v q) :
    (t.derivatives Tree.simplify v n).Represents v (Polynomial.derivative^[n] q) := by
  induction n generalizing t q with
  | zero => exact h
  | succ n ih => exact ih h.derivative

end Represents

end Univariate

end Fluxion.Tree
