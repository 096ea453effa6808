/-
The standard strategies integrate every linear combination of table
integrals whose nesting fits into the levels there are
(`integrate_of_combination`). Table integrals take one level and each
linear step takes one more, whatever constants stand in it.

A base is in the way only if it is known to be zero or negative. It is
known if it can be evaluated without bindings, and that is more than being
without variables: a conditional is evaluated by the branch that its test
selects, so `1 ? -1 : y` is known to be minus one (`knownBase`).
-/
import Fluxion.Double.Arithmetic
import Fluxion.Proofs.Double
import Fluxion.Proofs.Integral.Sound
import Fluxion.Proofs.Integral.Table

namespace Fluxion

variable {α : Type} [Scalar α]

/-! ## Known constants -/

namespace Tree

variable {e : Tree α} {k : α}

theorem constantValue_eq_some (he : e.AllFinite) :
    e.constantValue? = some k ↔ e.evaluate [] = .ok k := by
  unfold constantValue?
  split
  · next a =>
    have hfin : Scalar.isFinite a = true := he
    simp [evaluate, value, hfin, bind, Except.bind]
  · split
    · next a ha => simp [ha]
    · next d hd => simp [hd]

/-- A square with the literal two is one of those that are recognised. -/
theorem eq_two_self (h : Scalar.eq (Scalar.two : α) Scalar.two = true) :
    (two : Tree α).eq two = true := by
  simp [eq, equal, two, h]

end Tree

/-! ## Linear combinations -/

/-- The tree is a linear combination of table integrals, nested to the given
height. A base of an exponential has to satisfy `base`; a square is written
with any exponent that is equal to two. -/
inductive Combination (base : Tree α → Prop) (v : String) : Nat → Tree α → Prop
  | constant {c} (hc : c.mentions v = false) : Combination base v 1 c
  | var : Combination base v 1 (.var v)
  | power {e k} (he : e.mentions v = false) (hk : e.evaluate [] = .ok k) :
      Combination base v 1 (.binary .pow (.var v) e)
  | overVar {c} (hc : c.mentions v = false) : Combination base v 1 (.binary .div c (.var v))
  | overPower {c e k} (hc : c.mentions v = false) (he : e.mentions v = false)
      (hk : e.evaluate [] = .ok k) :
      Combination base v 1 (.binary .div c (.binary .pow (.var v) e))
  | sin : Combination base v 1 (.unary .sin (.var v))
  | cos : Combination base v 1 (.unary .cos (.var v))
  | secSquared {e} (he : e.eq Tree.two = true) :
      Combination base v 1 (.binary .pow (.unary .sec (.var v)) e)
  | cscSquared {e} (he : e.eq Tree.two = true) :
      Combination base v 1 (.binary .pow (.unary .csc (.var v)) e)
  | exp : Combination base v 1 (.unary .exp (.var v))
  | exponential {b} (hb : b.mentions v = false) (hbase : base b) :
      Combination base v 1 (.binary .pow b (.var v))
  | add {m n l r} (hl : Combination base v m l) (hr : Combination base v n r) :
      Combination base v (max m n + 1) (.binary .add l r)
  | sub {m n l r} (hl : Combination base v m l) (hr : Combination base v n r) :
      Combination base v (max m n + 1) (.binary .sub l r)
  | neg {n u} (hu : Combination base v n u) : Combination base v (n + 1) (.unary .neg u)
  | mulLeft {n c u} (hc : c.mentions v = false) (hu : Combination base v n u) :
      Combination base v (n + 1) (.binary .mul c u)
  | mulRight {n c u} (hc : c.mentions v = false) (hu : Combination base v n u) :
      Combination base v (n + 1) (.binary .mul u c)
  | div {n c u} (hc : c.mentions v = false) (hu : Combination base v n u) :
      Combination base v (n + 1) (.binary .div u c)

/-- The tree is known to be zero or negative. -/
def Tree.KnownNonpositive (b : Tree α) : Prop :=
  ∃ k, b.evaluate [] = .ok k ∧ Scalar.le k Scalar.zero = true

namespace Pipeline

open Strategy

variable [Numeral α] {p : Pipeline α} {v : String} {n D E : Nat}
  {t u c l r b e F G : Tree α} {k : α}

/-- With `D` levels or more an antiderivative is found, which is one indeed
if the numbers are exact. -/
def Integrates (p : Pipeline α) (v : String) (D : Nat) (t : Tree α) : Prop :=
  ∀ n, D ≤ n → ∃ F, p.run v n t = .ok F ∧ ∀ [Exact α ℝ], Tree.IsAntiderivative v F t

theorem Integrates.mono (h : p.Integrates v D t) (hDE : D ≤ E) : p.Integrates v E t :=
  fun n hn => h n (hDE.trans hn)

/-- What is found in one step from what is found with one level less. -/
theorem integrates_succ
    (h : ∀ n, D ≤ n → ∃ F, p.run v (n + 1) t = .ok F ∧ ∀ [Exact α ℝ], Tree.IsAntiderivative v F t) :
    p.Integrates v (D + 1) t := by
  intro n hn
  obtain ⟨m, rfl⟩ : ∃ m, n = m + 1 := ⟨n - 1, by omega⟩
  exact h m (by omega)

section Steps

variable (hp : p.strategies = Strategy.standard)

include hp

/-! ### Table integrals -/

theorem integrates_of_not_mentions (hc : c.mentions v = false) : p.Integrates v 1 c :=
  integrates_succ fun _ _ => ⟨_, run_of_not_mentions hp hc, Tree.isAntiderivative_constant hc⟩

/-- A tree that does not mention the variable is a constant, whatever it is
made of. -/
theorem integrates_of_mentions (hD : 1 ≤ D) (h : t.mentions v = true → p.Integrates v D t) :
    p.Integrates v D t := by
  cases hm : t.mentions v with
  | false => exact (integrates_of_not_mentions hp hm).mono hD
  | true => exact h hm

theorem integrates_power [Steady α] (he : e.mentions v = false) (hfin : e.AllFinite)
    (hk : e.evaluate [] = .ok k) : p.Integrates v 1 (.binary .pow (.var v) e) := by
  have hconst := (Tree.constantValue_eq_some hfin).mpr hk
  refine integrates_succ fun n _ => ?_
  cases h : Scalar.eq k (Scalar.neg Scalar.one) with
  | true => exact ⟨_, run_ln_power hp he hconst h, isAntiderivative_inverse hconst h⟩
  | false =>
    have hsum := Steady.isFinite_add_one (Tree.evaluate_eq_ok.mp hk).2
    exact ⟨_, run_power hp he hconst h hsum, isAntiderivative_raised hconst⟩

theorem integrates_overPower [Steady α] (hc : c.mentions v = false) (he : e.mentions v = false)
    (hfin : e.AllFinite) (hk : e.evaluate [] = .ok k) :
    p.Integrates v 1 (.binary .div c (.binary .pow (.var v) e)) := by
  have hconst := (Tree.constantValue_eq_some hfin).mpr hk
  refine integrates_succ fun n _ => ?_
  cases h : Scalar.eq k Scalar.one with
  | true =>
    exact ⟨_, run_ln_first_power hp hc he hconst h, isAntiderivative_overFirstPower hc hconst h⟩
  | false =>
    have hdiff := Steady.isFinite_one_sub (Tree.evaluate_eq_ok.mp hk).2
    exact ⟨_, run_reciprocal hp hc he hconst h hdiff, isAntiderivative_overPower hc hconst⟩

/-- A base that is not known, or known to be positive. -/
theorem integrates_exponential (hb : b.mentions v = false) (hfin : b.AllFinite)
    (hbase : ¬b.KnownNonpositive) : p.Integrates v 1 (.binary .pow b (.var v)) := by
  refine integrates_succ fun n _ => ?_
  cases hk : b.constantValue? with
  | none =>
    refine ⟨_, run_of_exponential_base hp hb ?_, Tree.isAntiderivative_exponential hb⟩
    simp [exponentialPlan, Tree.isFunctionOf, Tree.isVariable, hb, hk, Plan.run]
  | some k =>
    have hle : Scalar.le k Scalar.zero = false := by
      rw [Bool.eq_false_iff]
      exact fun h => hbase ⟨k, (Tree.constantValue_eq_some hfin).mp hk, h⟩
    cases h : Scalar.eq k Scalar.one with
    | true =>
      refine ⟨_, run_of_exponential_base hp hb ?_, isAntiderivative_unitBase hk h⟩
      simp [exponentialPlan, Tree.isFunctionOf, Tree.isVariable, hb, hk, h, Plan.run]
    | false =>
      refine ⟨_, run_of_exponential_base hp hb ?_, Tree.isAntiderivative_exponential hb⟩
      simp [exponentialPlan, Tree.isFunctionOf, Tree.isVariable, hb, hk, h, hle, Plan.run]

/-! ### Linear steps -/

theorem Integrates.neg (h : p.Integrates v D u) (hu : u.mentions v = true) :
    p.Integrates v (D + 1) (.unary .neg u) :=
  integrates_succ fun n hn => by
    obtain ⟨F, hF, hsound⟩ := h n hn
    exact ⟨_, run_neg hp hu hF, hsound.neg⟩

theorem Integrates.mulLeft (h : p.Integrates v D u) (hc : c.mentions v = false)
    (hu : u.mentions v = true) : p.Integrates v (D + 1) (.binary .mul c u) :=
  integrates_succ fun n hn => by
    obtain ⟨F, hF, hsound⟩ := h n hn
    exact ⟨_, run_mul_left hp hc hu hF, hsound.mul_left hc⟩

theorem Integrates.mulRight (h : p.Integrates v D u) (hc : c.mentions v = false)
    (hu : u.mentions v = true) : p.Integrates v (D + 1) (.binary .mul u c) :=
  integrates_succ fun n hn => by
    obtain ⟨F, hF, hsound⟩ := h n hn
    exact ⟨_, run_mul_right hp hc hu hF, hsound.mul_right hc⟩

theorem Integrates.div (h : p.Integrates v D u) (hc : c.mentions v = false)
    (hu : u.mentions v = true) : p.Integrates v (D + 1) (.binary .div u c) :=
  integrates_succ fun n hn => by
    obtain ⟨F, hF, hsound⟩ := h n hn
    exact ⟨_, run_div hp hc hu hF, hsound.div hc⟩

theorem Integrates.add (hl : p.Integrates v D l) (hr : p.Integrates v E r)
    (hm : (Tree.binary .add l r).mentions v = true) :
    p.Integrates v (max D E + 1) (.binary .add l r) :=
  integrates_succ fun n hn => by
    obtain ⟨F, hF, hsoundF⟩ := hl n (by omega)
    obtain ⟨G, hG, hsoundG⟩ := hr n (by omega)
    exact ⟨_, run_sum hp (.inl rfl) hm hF hG, hsoundF.add hsoundG⟩

theorem Integrates.sub (hl : p.Integrates v D l) (hr : p.Integrates v E r)
    (hm : (Tree.binary .sub l r).mentions v = true) :
    p.Integrates v (max D E + 1) (.binary .sub l r) :=
  integrates_succ fun n hn => by
    obtain ⟨F, hF, hsoundF⟩ := hl n (by omega)
    obtain ⟨G, hG, hsoundG⟩ := hr n (by omega)
    exact ⟨_, run_sum hp (.inr rfl) hm hF hG, hsoundF.sub hsoundG⟩

end Steps

/-! ### Every combination -/

theorem integrates_of_combination [Steady α] (hp : p.strategies = Strategy.standard) {h : Nat}
    (hfin : t.AllFinite) (ht : Combination (fun b => ¬b.KnownNonpositive) v h t) :
    p.Integrates v h t := by
  induction ht with
  | constant hc => exact integrates_of_not_mentions hp hc
  | var => exact integrates_succ fun _ _ => ⟨_, run_var hp, isAntiderivative_var⟩
  | power he hk => exact integrates_power hp he hfin.2 hk
  | overVar hc =>
    exact integrates_succ fun _ _ =>
      ⟨_, run_ln hp hc, Tree.isAntiderivative_logTerm hc fun _ => Tree.worth_var v⟩
  | overPower hc he hk => exact integrates_overPower hp hc he hfin.2.2 hk
  | sin => exact integrates_succ fun _ _ => ⟨_, run_sin hp, Tree.isAntiderivative_sin⟩
  | cos => exact integrates_succ fun _ _ => ⟨_, run_cos hp, Tree.isAntiderivative_cos⟩
  | secSquared he =>
    exact integrates_succ fun _ _ => ⟨_, run_sec_squared hp he, Tree.isAntiderivative_tan he⟩
  | cscSquared he =>
    exact integrates_succ fun _ _ => ⟨_, run_csc_squared hp he, Tree.isAntiderivative_cot he⟩
  | exp => exact integrates_succ fun _ _ => ⟨_, run_exp hp, Tree.isAntiderivative_exp⟩
  | exponential hb hbase => exact integrates_exponential hp hb hfin.1 hbase
  | add _ _ ihl ihr =>
    exact integrates_of_mentions hp (by omega) fun hm => (ihl hfin.1).add hp (ihr hfin.2) hm
  | sub _ _ ihl ihr =>
    exact integrates_of_mentions hp (by omega) fun hm => (ihl hfin.1).sub hp (ihr hfin.2) hm
  | neg _ ih => exact integrates_of_mentions hp (by omega) fun hm => (ih hfin).neg hp hm
  | mulLeft hc _ ih =>
    refine integrates_of_mentions hp (by omega) fun hm => (ih hfin.2).mulLeft hp hc ?_
    simpa [Tree.mentions, hc] using hm
  | mulRight hc _ ih =>
    refine integrates_of_mentions hp (by omega) fun hm => (ih hfin.1).mulRight hp hc ?_
    simpa [Tree.mentions, hc] using hm
  | div hc _ ih =>
    refine integrates_of_mentions hp (by omega) fun hm => (ih hfin.1).div hp hc ?_
    simpa [Tree.mentions, hc] using hm

/-- **Linear combinations of table integrals are integrated** with as many
levels as they are high, no base being known to be zero or negative. -/
theorem integrate_of_combination [Steady α] (p : Pipeline α)
    (hp : p.strategies = Strategy.standard) (v : String) (h : Nat) (t : Tree α)
    (hfin : t.AllFinite) (ht : Combination (fun b => ¬b.KnownNonpositive) v h t)
    (hd : h ≤ p.maxDepth) :
    ∃ F, p.integrate t v = .ok F ∧ ∀ [Exact α ℝ], Tree.IsAntiderivative v F t :=
  integrates_of_combination hp hfin ht p.maxDepth hd

/-- `3 * sec x ^ 2 - y ^ x / 2`. -/
noncomputable def secantLessPower : Tree Closed :=
  .binary .sub
    (.binary .mul (.const (.integer 3)) (.binary .pow (.unary .sec (.var "x")) Tree.two))
    (.binary .div (.binary .pow (.var "y") (.var "x")) (.const (.integer 2)))

/-- It is three levels high, and nothing is known of the base `y`. -/
theorem integrate_secantLessPower :
    ∃ F, (standard : Pipeline Closed).integrate secantLessPower "x" = .ok F ∧
      Tree.IsAntiderivative "x" F secantLessPower := by
  have htwo : (Tree.two : Tree Closed).eq Tree.two = true :=
    Tree.eq_two_self ((Exact.eq_iff Exact.reading_two Exact.reading_two).mpr rfl)
  have hbase : ¬(Tree.var "y" : Tree Closed).KnownNonpositive := by
    rintro ⟨k, hk, -⟩
    cases hk
  obtain ⟨F, hF, hsound⟩ := integrate_of_combination standard rfl "x" 3 secantLessPower
    ⟨⟨rfl, trivial, rfl⟩, ⟨trivial, trivial⟩, rfl⟩
    (.sub (.mulLeft rfl (.secSquared htwo)) (.div rfl (.exponential rfl hbase))) (by decide)
  exact ⟨F, hF, hsound⟩

/-- `1 ? -1 : y`, in double precision. It is not without variables, but it
is known to be minus one. -/
def knownBase : Tree Float := .branch (.const 1) (.const (-1)) (.var "y")

/-- It is not enough to exclude the bases without variables that are zero
or negative: `knownBase ^ x` is refused. -/
theorem not_integrate_knownBase :
    ¬∀ (p : Pipeline Float) (v : String) (h : Nat) (t : Tree Float),
      p.strategies = Strategy.standard → t.AllFinite →
      Combination (fun b => ¬(b.names = [] ∧ b.KnownNonpositive)) v h t → h ≤ p.maxDepth →
      ∃ F, p.integrate t v = .ok F := by
  intro hall
  have hrefused : (standard : Pipeline Float).integrate (.binary .pow knownBase (.var "x")) "x" =
      .error (.unsupported (.binary .pow knownBase (.var "x")) "x") := rfl
  obtain ⟨F, hF⟩ := hall standard "x" 1 (.binary .pow knownBase (.var "x")) rfl
    ⟨⟨rfl, rfl, trivial⟩, trivial⟩ (.exponential rfl fun h => by cases h.1) (by decide)
  rw [hrefused] at hF
  cases hF

end Pipeline

end Fluxion
