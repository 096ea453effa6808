/-
Antiderivatives. `F` is an antiderivative of `t` when, wherever both `t`
and the symbolic derivative of `F` have a value, the two values agree.

The rules below are those the strategies build with. Each is an identity
between values; nothing is differentiated but trees.
-/
import Fluxion.Integral.Strategy
import Fluxion.Proofs.Derivative.Constant
import Fluxion.Proofs.Simplification.Value
import Fluxion.Proofs.Tree.Product

namespace Fluxion.Tree

open Exact (reading)

variable {α : Type} [Scalar α] [Exact α ℝ] {v : String} {env : String → ℝ}

/-- The derivative of `F` with respect to `v` has the value of `t` wherever
both have one. -/
def IsAntiderivative (v : String) (F t : Tree α) : Prop :=
  ∀ env : String → ℝ, t.Defined env → (F.derivative v).Defined env →
    (F.derivative v).worth env = t.worth env

omit [Exact α ℝ] in
@[simp] theorem derivative_var_self : (Tree.var v : Tree α).derivative v = one :=
  if_pos (beq_self_eq_true v)

/-! ## Linearity -/

section Linearity

variable {F G l r c : Tree α}

theorem IsAntiderivative.neg (h : IsAntiderivative v F l) :
    IsAntiderivative v (.unary .neg F) (.unary .neg l) := by
  intro env ht hF
  rw [derivative, defined_neg] at hF
  rw [derivative, worth_neg, worth_neg, h env (defined_neg.mp ht) hF]

theorem IsAntiderivative.add (hl : IsAntiderivative v F l) (hr : IsAntiderivative v G r) :
    IsAntiderivative v (.binary .add F G) (.binary .add l r) := by
  intro env ht hF
  obtain ⟨ht₁, ht₂⟩ := defined_add.mp ht
  obtain ⟨hF₁, hF₂⟩ := defined_add.mp hF
  rw [worth_add ht₁ ht₂, ← hl env ht₁ hF₁, ← hr env ht₂ hF₂]
  exact worth_add hF₁ hF₂

theorem IsAntiderivative.sub (hl : IsAntiderivative v F l) (hr : IsAntiderivative v G r) :
    IsAntiderivative v (.binary .sub F G) (.binary .sub l r) := by
  intro env ht hF
  obtain ⟨ht₁, ht₂⟩ := defined_sub.mp ht
  obtain ⟨hF₁, hF₂⟩ := defined_sub.mp hF
  rw [worth_sub ht₁ ht₂, ← hl env ht₁ hF₁, ← hr env ht₂ hF₂]
  exact worth_sub hF₁ hF₂

theorem worth_derivative_mul (hc : c.mentions v = false)
    (hF : ((Tree.binary .mul c F).derivative v).Defined env) :
    (F.derivative v).Defined env ∧
      ((Tree.binary .mul c F).derivative v).worth env =
        c.worth env * (F.derivative v).worth env := by
  obtain ⟨h₁, h₂⟩ := defined_add.mp hF
  refine ⟨(defined_mul.mp h₂).2, (worth_add h₁ h₂).trans ?_⟩
  rw [worth_mul, worth_mul, worth_derivative_of_not_mentions hc, zero_mul, zero_add]

theorem IsAntiderivative.mul_left (hc : c.mentions v = false) (h : IsAntiderivative v F l) :
    IsAntiderivative v (.binary .mul c F) (.binary .mul c l) := by
  intro env ht hF
  obtain ⟨hF', heq⟩ := worth_derivative_mul hc hF
  rw [heq, worth_mul, h env (defined_mul.mp ht).2 hF']

/-- The constant factor may stand on the right. -/
theorem IsAntiderivative.mul_right (hc : c.mentions v = false) (h : IsAntiderivative v F l) :
    IsAntiderivative v (.binary .mul c F) (.binary .mul l c) := by
  intro env ht hF
  obtain ⟨hF', heq⟩ := worth_derivative_mul hc hF
  rw [heq, worth_mul, h env (defined_mul.mp ht).1 hF', mul_comm]

theorem worth_derivative_div (hc : c.mentions v = false)
    (hF : ((Tree.binary .div F c).derivative v).Defined env) :
    (F.derivative v).Defined env ∧ c.Defined env ∧ c.worth env ≠ 0 ∧
      ((Tree.binary .div F c).derivative v).worth env =
        (F.derivative v).worth env / c.worth env := by
  obtain ⟨hsub, hcc, hne⟩ := defined_div.mp hF
  obtain ⟨h₁, h₂⟩ := defined_sub.mp hsub
  rw [worth_mul] at hne
  refine ⟨(defined_mul.mp h₁).1, (defined_mul.mp hcc).1, left_ne_zero_of_mul hne, ?_⟩
  refine worth_div.trans ?_
  rw [worth_sub h₁ h₂, worth_mul, worth_mul, worth_mul, worth_derivative_of_not_mentions hc,
    mul_zero, sub_zero, mul_div_mul_right _ _ (left_ne_zero_of_mul hne)]

theorem IsAntiderivative.div (hc : c.mentions v = false) (h : IsAntiderivative v F l) :
    IsAntiderivative v (.binary .div F c) (.binary .div l c) := by
  intro env ht hF
  obtain ⟨hF', -, -, heq⟩ := worth_derivative_div hc hF
  rw [heq, worth_div, h env (defined_div.mp ht).1 hF']

theorem isAntiderivative_constant (hc : c.mentions v = false) :
    IsAntiderivative v (.binary .mul c (.var v)) c := by
  intro env ht hF
  obtain ⟨-, heq⟩ := worth_derivative_mul hc hF
  rw [heq, derivative_var_self, worth_one, mul_one]

end Linearity

/-! ## Powers and logarithms -/

theorem worth_const {a : α} {k : ℝ} (h : reading a = some k) : (Tree.const a).worth env = k :=
  worth_eq h

theorem worth_derivative_raised {a : α} {m : ℝ} (ha : reading a = some m)
    (hF : ((Tree.binary .div (.binary .pow (.var v) (.const a)) (.const a)).derivative v).Defined
      env) :
    PowerDefined (env v) (m - 1) ∧
      ((Tree.binary .div (.binary .pow (.var v) (.const a)) (.const a)).derivative v).worth env =
        env v ^ (m - 1) := by
  obtain ⟨hP, -, hne, heq⟩ := worth_derivative_div (c := .const a) rfl hF
  rw [worth_const ha] at hne heq
  have hrule : (Tree.binary .pow (.var v) (.const a)).derivative v =
      .binary .mul (.binary .mul (.const a) (.binary .pow (.var v)
        (.const (Scalar.sub a Scalar.one)))) one := by
    simp [derivative, binaryRule, powerRule, mentions, lowered]
  rw [hrule] at hP heq
  have hlow : (Tree.const (Scalar.sub a Scalar.one)).worth env = m - 1 :=
    worth_const (Exact.reading_sub ha Exact.reading_one)
  have hpow := (defined_mul.mp (defined_mul.mp hP).1).2
  refine ⟨?_, ?_⟩
  · have := (defined_pow.mp hpow).2.2
    rwa [hlow] at this
  · rw [heq, worth_mul, worth_mul, worth_const ha, worth_one, worth_pow hpow, hlow, worth_var,
      mul_one, mul_div_cancel_left₀ _ hne]

theorem isAntiderivative_power {a : α} {e : Tree α} {n : ℝ} (ha : reading a = some (n + 1))
    (he : ∀ {env : String → ℝ}, e.Defined env → e.worth env = n) :
    IsAntiderivative v (.binary .div (.binary .pow (.var v) (.const a)) (.const a))
      (.binary .pow (.var v) e) := by
  intro env ht hF
  obtain ⟨-, heq⟩ := worth_derivative_raised ha hF
  rw [heq, worth_pow ht, he (defined_pow.mp ht).2.1, worth_var, add_sub_cancel_right]

theorem worth_derivative_ln :
    ((Tree.unary .ln (.var v) : Tree α).derivative v).worth env = 1 / env v := by
  simp [derivative, outerDerivative]

/-- The logarithm, whose derivative is the power minus one. -/
theorem isAntiderivative_ln_power {e : Tree α}
    (he : ∀ {env : String → ℝ}, e.Defined env → e.worth env = -1) :
    IsAntiderivative v (.unary .ln (.var v)) (.binary .pow (.var v) e) := by
  intro env ht hF
  rw [worth_derivative_ln, worth_pow ht, he (defined_pow.mp ht).2.1, worth_var,
    Real.rpow_neg_one, one_div]

/-- A tree found equal to one is worth one. -/
theorem worth_of_eq_one {c : Tree α} (h : c.eq one = true) (hc : c.Defined env) :
    c.worth env = 1 :=
  exact_eq_of_eq h hc.exact_eq exact_one

/-- A constant divided by what has the value of the variable. -/
theorem isAntiderivative_logTerm {c d : Tree α} (hc : c.mentions v = false)
    (hd : ∀ {env : String → ℝ}, d.Defined env → d.worth env = env v) :
    IsAntiderivative v (Strategy.logTerm v c) (.binary .div c d) := by
  intro env ht hF
  obtain ⟨hc₀, hd₀, -⟩ := defined_div.mp ht
  rw [worth_div, hd hd₀]
  unfold Strategy.logTerm at hF ⊢
  split at hF
  · next h => rw [if_pos h, worth_derivative_ln, worth_of_eq_one h hc₀]
  · next h =>
    rw [if_neg h, (worth_derivative_mul hc hF).2, worth_derivative_ln, mul_one_div]

/-- A constant divided by a power. -/
theorem isAntiderivative_reciprocal {c e : Tree α} {a : α} {n : ℝ} (hc : c.mentions v = false)
    (ha : reading a = some (1 - n))
    (he : ∀ {env : String → ℝ}, e.Defined env → e.worth env = n) {F : Tree α}
    (hF : (if c.eq one then .binary .div (.binary .pow (.var v) (.const a)) (.const a)
      else .binary .mul c (.binary .div (.binary .pow (.var v) (.const a)) (.const a))) = F) :
    IsAntiderivative v F (.binary .div c (.binary .pow (.var v) e)) := by
  intro env ht hF'
  obtain ⟨hc₀, hpow, -⟩ := defined_div.mp ht
  have hp := (defined_pow.mp hpow).2.2
  rw [he (defined_pow.mp hpow).2.1, worth_var] at hp
  have hexp : (1 : ℝ) - n - 1 = -n := by ring
  -- dividing by a power is multiplying by the opposite power
  have inverse (hm : PowerDefined (env v) (-n)) : env v ^ (-n) = (env v ^ n)⁻¹ :=
    eq_inv_of_mul_eq_one_right (power_mul_power_neg (power_eq_some.mpr ⟨hp, rfl⟩)
      (power_eq_some.mpr ⟨hm, rfl⟩))
  rw [worth_div, worth_pow hpow, he (defined_pow.mp hpow).2.1, worth_var]
  split at hF
  · next h =>
    subst hF
    obtain ⟨hm, heq⟩ := worth_derivative_raised ha hF'
    rw [hexp] at hm heq
    rw [heq, inverse hm, worth_of_eq_one h hc₀, one_div]
  · subst hF
    obtain ⟨hT, hmul⟩ := worth_derivative_mul hc hF'
    obtain ⟨hm, heq⟩ := worth_derivative_raised ha hT
    rw [hexp] at hm heq
    rw [hmul, heq, inverse hm, div_eq_mul_inv]

/-! ## Table integrals -/

theorem isAntiderivative_sin :
    IsAntiderivative v (.unary .neg (.unary .cos (.var v))) (.unary .sin (.var v) : Tree α) := by
  intro env _ _
  simp [derivative, outerDerivative]

theorem isAntiderivative_cos :
    IsAntiderivative v (.unary .sin (.var v)) (.unary .cos (.var v) : Tree α) := by
  intro env _ _
  simp [derivative, outerDerivative]

theorem isAntiderivative_exp :
    IsAntiderivative v (.unary .exp (.var v)) (.unary .exp (.var v) : Tree α) := by
  intro env _ _
  simp [derivative, outerDerivative]

/-- A square is written with any exponent equal to two. -/
theorem worth_squared {u e : Tree α} (he : e.eq two = true)
    (h : (Tree.binary .pow u e).Defined env) (h' : (squared u).Defined env) :
    (squared u).worth env = (Tree.binary .pow u e).worth env := by
  have htwo : e.worth env = 2 := exact_eq_of_eq he (defined_pow.mp h).2.1.exact_eq exact_two
  rw [worth_pow h, htwo, squared, worth_pow h', worth_two]

theorem isAntiderivative_tan {e : Tree α} (he : e.eq two = true) :
    IsAntiderivative v (.unary .tan (.var v)) (.binary .pow (.unary .sec (.var v)) e) := by
  intro env ht hF
  have hF' : (Tree.binary .mul (squared (.unary .sec (.var v) : Tree α)) one).Defined env := by
    simpa [derivative, outerDerivative] using hF
  rw [← worth_squared he ht (defined_mul.mp hF').1]
  simp [derivative, outerDerivative]

theorem isAntiderivative_cot {e : Tree α} (he : e.eq two = true) :
    IsAntiderivative v (.unary .neg (.unary .cot (.var v)))
      (.binary .pow (.unary .csc (.var v)) e) := by
  intro env ht hF
  have hF' : (squared (.unary .csc (.var v) : Tree α)).Defined env := by
    simpa [derivative, outerDerivative] using hF
  rw [← worth_squared he ht hF']
  simp [derivative, outerDerivative]

/-! ## Exponentials -/

/-- `1 ^ v` is constant. -/
theorem isAntiderivative_one_pow {b : Tree α}
    (hb : ∀ {env : String → ℝ}, b.Defined env → b.worth env = 1) :
    IsAntiderivative v (.var v) (.binary .pow b (.var v)) := by
  intro env ht _
  rw [derivative_var_self, worth_one, worth_pow ht, hb (defined_pow.mp ht).1, Real.one_rpow]

/-- `b ^ v / ln b`; the logarithm is not zero where the derivative of the
quotient is defined. -/
theorem isAntiderivative_exponential {b : Tree α} (hb : b.mentions v = false) :
    IsAntiderivative v (.binary .div (.binary .pow b (.var v)) (.unary .ln b))
      (.binary .pow b (.var v)) := by
  intro env ht hF
  obtain ⟨-, -, hne, heq⟩ := worth_derivative_div (c := .unary .ln b) hb hF
  have hrule : (Tree.binary .pow b (.var v)).derivative v =
      .binary .mul (.binary .pow b (.var v)) (.binary .mul (.unary .ln b) one) := by
    simp [derivative, binaryRule, powerRule, mentions, hb]
  rw [heq, hrule, worth_mul, worth_mul, worth_one, mul_one, mul_div_cancel_right₀ _ hne]

/-! ## Integration by parts -/

/-- `∫ u dv = u w - s` with `w` for `dv` and `s` for the product of `w` and
the derivative of `u`. -/
theorem isAntiderivative_parts {u dv w s rest t : Tree α} (hw : IsAntiderivative v w dv)
    (hrest : regroup [w, (u.derivative v).simplify] = .ok rest) (hs : IsAntiderivative v s rest)
    (ht : ∀ {env : String → ℝ}, t.Defined env →
      dv.Defined env ∧ t.worth env = u.worth env * dv.worth env) :
    IsAntiderivative v (.binary .sub (.binary .mul u w) s) t := by
  intro env ht₀ hF
  obtain ⟨hdv, hworth⟩ := ht ht₀
  obtain ⟨hprod, hs'⟩ := defined_sub.mp hF
  obtain ⟨h₁, h₂⟩ := defined_add.mp hprod
  obtain ⟨hu', hw₀⟩ := defined_mul.mp h₁
  have hsimp := exact_simplify_eq hu'.exact_eq
  have hdef : ∀ f ∈ [w, (u.derivative v).simplify], f.Defined env := by
    simp only [List.mem_cons, List.not_mem_nil, or_false, forall_eq_or_imp, forall_eq]
    exact ⟨hw₀, defined_of_exact hsimp⟩
  obtain ⟨rest', hok, hval⟩ := exact_regroup hdef
  obtain rfl := Except.ok.inj (hok.symm.trans hrest)
  have hrest₀ : rest'.worth env = w.worth env * (u.derivative v).worth env := by
    rw [worth_eq hval]; simp [worth_eq hsimp]
  rw [hworth, ← hw env hdv (defined_mul.mp h₂).2]
  have hmul : ((Tree.binary .mul u w).derivative v).worth env =
      (u.derivative v).worth env * w.worth env + u.worth env * (w.derivative v).worth env :=
    (worth_add h₁ h₂).trans (by rw [worth_mul, worth_mul])
  calc ((Tree.binary .sub (.binary .mul u w) s).derivative v).worth env
      = ((Tree.binary .mul u w).derivative v).worth env - (s.derivative v).worth env :=
        worth_sub hprod hs'
    _ = u.worth env * (w.derivative v).worth env := by
        rw [hmul, hs env (defined_of_exact hval) hs', hrest₀]
        ring

/-! ## Substitution -/

/-- The derivative of the outer antiderivative at an inner tree. -/
theorem worth_derivative_outer {op : UnaryOp} {u g : Tree α}
    (h : Strategy.outerAntiderivative? op u = some g) (hg : (g.derivative v).Defined env) :
    (u.derivative v).Defined env ∧
      (g.derivative v).worth env = (Tree.unary op u).worth env * (u.derivative v).worth env := by
  cases op <;> cases h
  all_goals
    simp only [derivative, outerDerivative, defined_neg, defined_mul] at hg
    exact ⟨hg.2, by simp [derivative, outerDerivative]⟩

/-- A product in which the factors other than `op u` are a multiple of the
derivative of `u`. -/
theorem isAntiderivative_substitution [Numeral α] {t u g c F : Tree α} {op : UnaryOp}
    {before after : List (Tree α)} {a : α}
    (hfactors : t.factors = before ++ .unary op u :: after)
    (hg : Strategy.outerAntiderivative? op u = some g)
    (hc : Strategy.cofactor (before ++ after) = .ok c)
    (hratio : ∀ {env : String → ℝ}, c.Defined env → (u.derivative v).Defined env →
      ∃ k, reading a = some k ∧ c.worth env = k * (u.derivative v).worth env)
    (hF : Strategy.scaledBy a g = .ok F) : IsAntiderivative v F t := by
  intro env ht hF'
  have hdef := defined_factors ht
  rw [hfactors] at hdef
  -- the cofactor is defined and its value is that of the other factors
  have hothers : ∀ f ∈ before ++ after, f.Defined env := fun f hf => by
    refine hdef f ?_
    rw [List.mem_append] at hf ⊢
    exact hf.imp_right (List.mem_cons_of_mem _)
  have hval : c.exact env = some ((before ++ after).map (worth env)).prod := by
    unfold Strategy.cofactor at hc
    split at hc
    · next hempty =>
      obtain rfl := Except.ok.inj hc
      rw [List.isEmpty_iff.mp hempty]
      exact exact_one
    · obtain ⟨c', hok, hval⟩ := exact_regroup hothers
      obtain rfl := Except.ok.inj (hok.symm.trans hc)
      exact hval
  have hworth : t.worth env = c.worth env * (Tree.unary op u).worth env := by
    rw [← prod_factors t, hfactors, worth_eq hval]
    simp only [List.map_append, List.map_cons, List.prod_append, List.prod_cons]
    ring
  unfold Strategy.scaledBy at hF
  split at hF
  · next h =>
    obtain rfl := Except.ok.inj hF
    obtain ⟨hu', heq⟩ := worth_derivative_outer hg hF'
    obtain ⟨k, ha, hk⟩ := hratio (defined_of_exact hval) hu'
    have hk₁ : k = 1 := (Exact.eq_iff ha Exact.reading_one).mp h
    rw [heq, hworth, hk, hk₁]
    ring
  · obtain ⟨b, hb, rfl⟩ := map_eq_ok.mp hF
    obtain ⟨-, rfl⟩ := literal_eq_ok.mp hb
    obtain ⟨hg', hmul⟩ := worth_derivative_mul rfl hF'
    obtain ⟨hu', heq⟩ := worth_derivative_outer hg hg'
    obtain ⟨k, ha, hk⟩ := hratio (defined_of_exact hval) hu'
    rw [hmul, worth_const ha, heq, hworth, hk]
    ring

end Fluxion.Tree
