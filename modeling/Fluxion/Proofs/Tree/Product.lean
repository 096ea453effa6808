/-
Products of factors keep their value: opening a product into factors,
collecting literals and signs in one coefficient, and multiplying all of
it together again.
-/
import Mathlib.Algebra.BigOperators.Group.List.Basic
import Mathlib.Data.List.Forall2
import Fluxion.Proofs.Exact.Rational
import Fluxion.Proofs.Exact.Worth
import Fluxion.Proofs.Tree.Over

namespace Fluxion.Tree

open Exact (reading)

variable {α K : Type} [Field K] [LinearOrder K] [Elementary K] [Scalar α] [Exact α K]
variable {env : String → K} {k : K}

/-! ## Factors -/

theorem prod_factors (t : Tree α) : (t.factors.map (worth env)).prod = t.worth env := by
  fun_induction factors t with
  | case1 l r hl hr => rw [List.map_append, List.prod_append, hl, hr, worth_mul]
  | case2 t _ => simp

theorem defined_factors {t : Tree α} (h : t.Defined env) : ∀ u ∈ t.factors, u.Defined env := by
  fun_induction factors t with
  | case1 l r hl hr =>
    obtain ⟨hl', hr'⟩ := defined_mul.mp h
    intro u hu
    rcases List.mem_append.mp hu with hu | hu
    · exact hl hl' u hu
    · exact hr hr' u hu
  | case2 t _ =>
    intro u hu
    rw [List.mem_singleton.mp hu]; exact h

theorem worth_chain (t : Tree α) (us : List (Tree α)) :
    (chain t us).worth env = t.worth env * (us.map (worth env)).prod := by
  induction us generalizing t with
  | nil => simp [chain]
  | cons u us ih => rw [chain, ih, worth_mul, List.map_cons, List.prod_cons, mul_assoc]

theorem defined_chain {t : Tree α} {us : List (Tree α)} (ht : t.Defined env)
    (h : ∀ u ∈ us, u.Defined env) : (chain t us).Defined env := by
  induction us generalizing t with
  | nil => exact ht
  | cons u us ih =>
    exact ih (defined_mul.mpr ⟨ht, h u (by simp)⟩) fun w hw => h w (List.mem_cons_of_mem u hw)

/-! ## Coefficients -/

/-- A coefficient that stands for `k` before factors with values, the
product of all of which is `x`. -/
structure Stands (env : String → K) (x : K) (acc : α × List (Tree α)) : Prop where
  coefficient : ∃ k, reading acc.1 = some k ∧ k * (acc.2.map (worth env)).prod = x
  defined : ∀ u ∈ acc.2, u.Defined env

theorem reading_stripSigns {c : α} {t : Tree α} (hc : reading c = some k) (ht : t.Defined env) :
    ∃ m, reading (stripSigns c t).1 = some m ∧ (stripSigns c t).2.Defined env ∧
      m * (stripSigns c t).2.worth env = k * t.worth env := by
  fun_induction stripSigns c t generalizing k with
  | case1 c u ih =>
    obtain ⟨m, hm, hd, heq⟩ := ih (Exact.reading_neg hc) (defined_neg.mp ht)
    exact ⟨m, hm, hd, by rw [heq, worth_neg, neg_mul, mul_neg]⟩
  | case2 c t _ => exact ⟨k, hc, ht, rfl⟩

theorem Stands.absorb {x : K} {acc : α × List (Tree α)} (h : Stands env x acc) {part : Tree α}
    (hp : part.Defined env) : Stands env (x * part.worth env) (absorb acc part) := by
  obtain ⟨k, hk, hx⟩ := h.coefficient
  obtain ⟨m, hm, hd, heq⟩ := reading_stripSigns hk hp
  have total : m * (acc.2.map (worth env)).prod * (stripSigns acc.1 part).2.worth env =
      x * part.worth env := by
    rw [← hx, mul_right_comm, heq, mul_right_comm]
  unfold Tree.absorb
  split
  · next c a hs =>
    rw [hs] at hm hd total
    refine ⟨⟨m * (Tree.const a).worth env, Exact.reading_mul hm hd.exact_eq, ?_⟩, h.defined⟩
    rw [← total, mul_right_comm]
  · next c t _ hs =>
    rw [hs] at hm hd total
    refine ⟨⟨m, hm, ?_⟩, ?_⟩
    · rw [← total, List.map_append, List.prod_append, List.map_singleton, List.prod_singleton,
        mul_assoc]
    · intro u hu
      rcases List.mem_append.mp hu with hu | hu
      · exact h.defined u hu
      · rw [List.mem_singleton.mp hu]; exact hd

theorem Stands.foldl {x : K} {acc : α × List (Tree α)} (h : Stands env x acc)
    {parts : List (Tree α)} (hp : ∀ u ∈ parts, u.Defined env) :
    Stands env (x * (parts.map (worth env)).prod) (parts.foldl Tree.absorb acc) := by
  induction parts generalizing acc x with
  | nil => simpa using h
  | cons p ps ih =>
    rw [List.map_cons, List.prod_cons, ← mul_assoc]
    exact ih (h.absorb (hp p (by simp))) fun u hu => hp u (List.mem_cons_of_mem p hu)

theorem prod_flatMap_factors (fs : List (Tree α)) :
    ((fs.flatMap factors).map (worth env)).prod = (fs.map (worth env)).prod := by
  induction fs with
  | nil => rfl
  | cons f fs ih =>
    rw [List.flatMap_cons, List.map_append, List.prod_append, ih, prod_factors, List.map_cons,
      List.prod_cons]

theorem stands_collect {fs : List (Tree α)} (h : ∀ f ∈ fs, f.Defined env) :
    Stands env (fs.map (worth env)).prod (collect fs) := by
  have start : Stands env 1 ((Scalar.one : α), []) :=
    ⟨⟨1, Exact.reading_one, by simp⟩, by simp⟩
  rw [← prod_flatMap_factors, ← one_mul (List.prod _)]
  refine start.foldl fun u hu => ?_
  obtain ⟨f, hf, hu⟩ := List.mem_flatMap.mp hu
  exact defined_factors (h f hf) u hu

/-! ## Multiplying together -/

theorem literal_of_reading {a : α} (h : reading a = some k) :
    literal a = .ok (.const a) :=
  literal_eq_ok.mpr ⟨Exact.isFinite_of_reading h, rfl⟩

theorem exact_lead {c : α} {ts : List (Tree α)} {x : K} (h : Stands env x (c, ts)) :
    ∃ t, lead c ts = .ok t ∧ t.exact env = some x := by
  obtain ⟨k, hk, hx⟩ := h.coefficient
  unfold lead
  split
  · exact ⟨_, literal_of_reading hk, by rw [exact_const, hk, ← hx]; simp⟩
  · next u us =>
    have hd := h.defined
    have hchain : (chain u us).exact env = some ((u :: us).map (worth env)).prod := by
      rw [(defined_chain (hd u (by simp)) fun w hw => hd w (by simp [hw])).exact_eq, worth_chain,
        List.map_cons, List.prod_cons]
    split
    · next h₀ =>
      have hk₀ : k = 0 := (Exact.eq_iff hk Exact.reading_zero).mp h₀
      exact ⟨_, literal_of_reading hk, by rw [exact_const, hk, ← hx, hk₀, zero_mul]⟩
    split
    · next h₁ =>
      have hk₁ : k = 1 := (Exact.eq_iff hk Exact.reading_one).mp h₁
      exact ⟨_, rfl, by rw [hchain, ← hx, hk₁, one_mul]⟩
    split
    · next h₁ =>
      have hk₁ : k = -1 := (Exact.eq_iff hk (Exact.reading_neg Exact.reading_one)).mp h₁
      exact ⟨_, rfl, exact_neg_eq_some.mpr ⟨_, hchain, by rw [← hx, hk₁, neg_one_mul]⟩⟩
    · refine ⟨_, map_eq_ok.mpr ⟨_, literal_of_reading hk, rfl⟩, ?_⟩
      exact exact_mul_eq_some.mpr ⟨_, _, hk, hchain, hx⟩

/-- The regrouped product of factors that have values has the product of
the values. -/
theorem exact_regroup {fs : List (Tree α)} (h : ∀ f ∈ fs, f.Defined env) :
    ∃ t, regroup fs = .ok t ∧ t.exact env = some (fs.map (worth env)).prod :=
  exact_lead (stands_collect h)

theorem defined_and_worth_of_values {fs : List (Tree α)} {xs : List K}
    (h : List.Forall₂ (fun f x => f.exact env = some x) fs xs) :
    (∀ f ∈ fs, f.Defined env) ∧ fs.map (worth env) = xs := by
  induction h with
  | nil => exact ⟨List.forall_mem_nil _, rfl⟩
  | cons hf _ ih =>
    obtain ⟨hdefined, hworth⟩ := ih
    exact ⟨List.forall_mem_cons.mpr ⟨defined_of_exact hf, hdefined⟩,
      List.cons_eq_cons.mpr ⟨worth_eq hf, hworth⟩⟩

/-- **Regrouping keeps the value.** Where every factor of a list has a value
the regrouped product has the product of the values, one for no factors. So a
tree that is opened into its factors and regrouped keeps its value. -/
theorem regroup_prod (env : String → K) :
    (∀ (fs : List (Tree α)) (xs : List K),
      List.Forall₂ (fun f x => f.exact env = some x) fs xs →
        ∃ t, regroup fs = .ok t ∧ t.exact env = some xs.prod) ∧
    ∀ (e : Tree α) (x : K), e.exact env = some x →
      ∃ t, regroup e.factors = .ok t ∧ t.exact env = some x := by
  constructor
  · intro fs xs h
    obtain ⟨hdefined, hworth⟩ := defined_and_worth_of_values h
    rw [← hworth]
    exact exact_regroup hdefined
  · intro e x h
    rw [← worth_eq h, ← prod_factors]
    exact exact_regroup (defined_factors (defined_of_exact h))

/-- `x * 2 * -(-(-(4 / x))) * -(3)`, signs and literals spread over it. -/
def spreadSigns : Tree Rational :=
  .binary .mul
    (.binary .mul (.binary .mul (.var "x") (.const ⟨some 2⟩))
      (.unary .neg (.unary .neg (.unary .neg (.binary .div (.const ⟨some 4⟩) (.var "x"))))))
    (.unary .neg (.const ⟨some 3⟩))

/-- At `x = 5` the four factors are `5`, `2`, `-4 / 5` and `-3`. -/
theorem regroup_spreadSigns :
    List.Forall₂ (fun f x => f.exact (fun _ => (5 : ℚ)) = some x) spreadSigns.factors
        [5, 2, -(4 / 5), -3] ∧
      ∃ t, regroup spreadSigns.factors = .ok t ∧ t.exact (fun _ => (5 : ℚ)) = some 24 := by
  have hquotient : (Tree.binary .div (.const ⟨some 4⟩) (.var "x") : Tree Rational).exact
      (fun _ => (5 : ℚ)) = some (4 / 5) :=
    exact_div_eq_some.mpr ⟨4, 5, rfl, rfl, by norm_num, rfl⟩
  have hsigned : (Tree.unary .neg (.unary .neg (.unary .neg
      (.binary .div (.const ⟨some 4⟩) (.var "x")))) : Tree Rational).exact
      (fun _ => (5 : ℚ)) = some (-(4 / 5)) := by
    simp [exact_neg_eq_some, hquotient]
  have hvalues : List.Forall₂ (fun f x => f.exact (fun _ => (5 : ℚ)) = some x)
      spreadSigns.factors [5, 2, -(4 / 5), -3] :=
    .cons rfl (.cons rfl (.cons hsigned (.cons rfl .nil)))
  have hprod : [5, 2, -(4 / 5), -3].prod = (24 : ℚ) := by norm_num
  rw [← hprod]
  exact ⟨hvalues, (regroup_prod _).1 _ _ hvalues⟩

end Fluxion.Tree
