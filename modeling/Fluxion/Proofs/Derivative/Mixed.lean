/-
Mixed partial derivatives commute, by algebra alone: nothing is said of
limits. Of the field it is asked only what the power rule needs at a
positive base, `x ^ (y - 1) * x = x ^ y`, and that only positive numbers
have a logarithm (`PositivePowers`).

A named function is differentiated twice through the chain rule, and all
that is needed of its outer derivative is that it depends on the variables
through the operand (`Through`). A power has three rules, and the two
orders may use different ones. Where the exponent mentions one of the
variables the base has a logarithm, and each rule gives the one formula of
`worth_second_pow`, which is symmetric once the mixed derivatives of base
and exponent are. Where it mentions neither, the base may be negative, but
both orders use the power rule alone.
-/
import Mathlib.Tactic.FieldSimp
import Mathlib.Tactic.Ring
import Fluxion.Proofs.Derivative.Real
import Fluxion.Proofs.Derivative.Variable

namespace Fluxion

/-- Powers of positive numbers, and logarithms of no others. -/
class PositivePowers (K : Type) [Field K] [LinearOrder K] [Elementary K] : Prop where
  power_sub_one_mul {x y p q : K} (hx : 0 < x) (hp : Elementary.power x (y - 1) = some p)
    (hq : Elementary.power x y = some q) : p * x = q
  pos_of_ln {x z : K} (h : Elementary.function .ln x = some z) : 0 < x

instance : PositivePowers ℝ where
  power_sub_one_mul hx hp hq := by
    rw [← (power_eq_some.mp hp).2, ← (power_eq_some.mp hq).2, Real.rpow_sub_one hx.ne',
      div_mul_cancel₀ _ hx.ne']
  pos_of_ln h := (function_eq_some.mp h).1

namespace Tree

section Rules

variable {α : Type} [Scalar α] {v w : String} {f g : Tree α}

/-! ## One rule for each operation -/

theorem derivative_add : (Tree.binary .add f g).derivative v =
    .binary .add (f.derivative v) (g.derivative v) := rfl

theorem derivative_sub : (Tree.binary .sub f g).derivative v =
    .binary .sub (f.derivative v) (g.derivative v) := rfl

theorem derivative_mul : (Tree.binary .mul f g).derivative v =
    .binary .add (.binary .mul (f.derivative v) g) (.binary .mul f (g.derivative v)) := rfl

theorem derivative_div : (Tree.binary .div f g).derivative v =
    .binary .div (.binary .sub (.binary .mul (f.derivative v) g) (.binary .mul f (g.derivative v)))
      (.binary .mul g g) := rfl

theorem derivative_pow_exponent_free (h : g.mentions v = false) :
    (Tree.binary .pow f g).derivative v =
      .binary .mul (.binary .mul g (.binary .pow f (lowered g))) (f.derivative v) := by
  rw [derivative, binaryRule, powerRule, if_pos (by simp [h])]

theorem derivative_pow_base_free (hf : f.mentions v = false) (hg : g.mentions v = true) :
    (Tree.binary .pow f g).derivative v =
      .binary .mul (.binary .pow f g) (.binary .mul (.unary .ln f) (g.derivative v)) := by
  rw [derivative, binaryRule, powerRule, if_neg (by simp [hg]), if_pos (by simp [hf])]

theorem derivative_pow_both (hf : f.mentions v = true) (hg : g.mentions v = true) :
    (Tree.binary .pow f g).derivative v =
      .binary .mul (.binary .pow f g) (.binary .add (.binary .mul (g.derivative v) (.unary .ln f))
        (.binary .div (.binary .mul g (f.derivative v)) f)) := by
  rw [derivative, binaryRule, powerRule, if_neg (by simp [hg]), if_neg (by simp [hf])]

end Rules

variable {α K : Type} [Field K] [LinearOrder K] [Elementary K] [Scalar α] [Exact α K]
variable {env : String → K} {v w : String} {t u f g : Tree α}

/-! ## A derivative that vanishes, and its derivative -/

/-- Worth nothing, and so is the derivative. -/
structure Vanishes (env : String → K) (w : String) (t : Tree α) : Prop where
  worth_eq : t.worth env = 0
  worth_derivative : (t.derivative w).worth env = 0

theorem absorbing_vanishes (env : String → K) (w : String) :
    Absorbing (Vanishes (α := α) env w) :=
  have worth := absorbing_worth (α := α) env
  { zero := ⟨worth.zero, worth.zero⟩
    add := fun hf hg => ⟨worth.add hf.1 hg.1, worth.add hf.2 hg.2⟩
    sub := fun hf hg => ⟨worth.sub hf.1 hg.1, worth.sub hf.2 hg.2⟩
    mul_left := fun hf g =>
      ⟨worth.mul_left hf.1 g, worth.add (worth.mul_left hf.2 g) (worth.mul_left hf.1 _)⟩
    mul_right := fun f _ hg =>
      ⟨worth.mul_right f hg.1, worth.add (worth.mul_right _ hg.1) (worth.mul_right f hg.2)⟩
    div := fun hf g =>
      ⟨worth.div hf.1 g, worth.div (worth.sub (worth.mul_left hf.2 g) (worth.mul_left hf.1 _)) _⟩
    neg := fun hu => ⟨worth.neg hu.1, worth.neg hu.2⟩
    branch := fun c _ _ ht hf => ⟨worth.branch c ht.1 hf.1, worth.branch c ht.2 hf.2⟩ }

theorem worth_mixed_eq_zero (h : t.mentions v = false ∨ t.mentions w = false) :
    ((t.derivative v).derivative w).worth env = 0 := by
  rcases h with h | h
  · exact ((absorbing_vanishes env w).derivative h).2
  · exact worth_derivative_of_not_mentions (mentions_derivative h)

/-! ## The chain rule -/

/-- The tree depends on the variables through `u`: each derivative of it is
the same multiple of that of `u`. -/
def Through (env : String → K) (u t : Tree α) : Prop :=
  ∃ k, ∀ w, (t.derivative w).Defined env →
    (t.derivative w).worth env = k * (u.derivative w).worth env

namespace Through

theorem self : Through env u u := ⟨1, fun _ _ => (one_mul _).symm⟩

theorem const (a : α) : Through env u (.const a) :=
  ⟨0, fun _ _ => by rw [derivative, worth_zero, zero_mul]⟩

theorem neg (h : Through env u t) : Through env u (.unary .neg t) := by
  obtain ⟨k, hk⟩ := h
  refine ⟨-k, fun w hw => ?_⟩
  rw [derivative, worth_neg, hk w (defined_neg.mp hw), neg_mul]

theorem add (hf : Through env u f) (hg : Through env u g) : Through env u (.binary .add f g) := by
  obtain ⟨k, hk⟩ := hf
  obtain ⟨m, hm⟩ := hg
  refine ⟨k + m, fun w hw => ?_⟩
  obtain ⟨hl, hr⟩ := defined_add.mp hw
  rw [derivative_add, worth_add hl hr, hk w hl, hm w hr, add_mul]

theorem sub (hf : Through env u f) (hg : Through env u g) : Through env u (.binary .sub f g) := by
  obtain ⟨k, hk⟩ := hf
  obtain ⟨m, hm⟩ := hg
  refine ⟨k - m, fun w hw => ?_⟩
  obtain ⟨hl, hr⟩ := defined_sub.mp hw
  rw [derivative_sub, worth_sub hl hr, hk w hl, hm w hr, sub_mul]

theorem mul (hf : Through env u f) (hg : Through env u g) : Through env u (.binary .mul f g) := by
  obtain ⟨k, hk⟩ := hf
  obtain ⟨m, hm⟩ := hg
  refine ⟨k * g.worth env + f.worth env * m, fun w hw => ?_⟩
  obtain ⟨hl, hr⟩ := defined_add.mp hw
  rw [derivative_mul, worth_add hl hr, worth_mul, worth_mul, hk w (defined_mul.mp hl).1,
    hm w (defined_mul.mp hr).2]
  ring

theorem div (hf : Through env u f) (hg : Through env u g) : Through env u (.binary .div f g) := by
  obtain ⟨k, hk⟩ := hf
  obtain ⟨m, hm⟩ := hg
  refine ⟨(k * g.worth env - f.worth env * m) / (g.worth env * g.worth env), fun w hw => ?_⟩
  obtain ⟨hl, hr⟩ := defined_sub.mp (defined_div.mp hw).1
  rw [derivative_div, worth_div, worth_sub hl hr, worth_mul, worth_mul, worth_mul,
    hk w (defined_mul.mp hl).1, hm w (defined_mul.mp hr).2]
  ring

theorem squared (h : Through env u t) : Through env u (squared t) := by
  obtain ⟨k, hk⟩ := h
  refine ⟨(Tree.binary .mul two (.binary .pow t (lowered two))).worth env * k, fun w hw => ?_⟩
  have heq : (Tree.squared t).derivative w =
      .binary .mul (.binary .mul two (.binary .pow t (lowered two))) (t.derivative w) := rfl
  rw [heq] at hw ⊢
  rw [worth_mul, hk w (defined_mul.mp hw).2, mul_assoc]

theorem unary {op : UnaryOp} (hop : op ≠ .neg) (h : Through env u t) :
    Through env u (.unary op t) := by
  obtain ⟨k, hk⟩ := h
  refine ⟨(outerDerivative op t).worth env * k, fun w hw => ?_⟩
  rw [derivative_unary hop] at hw ⊢
  rw [worth_mul, hk w (defined_mul.mp hw).2, mul_assoc]

end Through

/-- An outer derivative depends on the variables through the operand. -/
theorem through_outerDerivative (op : UnaryOp) (u : Tree α) :
    Through env u (outerDerivative op u) := by
  have arc : Through env u (.binary .div one (.unary .sqrt (.binary .sub one (squared u)))) :=
    (Through.const _).div (.unary (by decide) (.sub (.const _) (.squared .self)))
  cases op with
  | neg => exact (Through.const _).neg
  | sin => exact .unary (by decide) .self
  | cos => exact .neg (.unary (by decide) .self)
  | tan => exact .squared (.unary (by decide) .self)
  | sec => exact .mul (.unary (by decide) .self) (.unary (by decide) .self)
  | csc => exact .neg (.mul (.unary (by decide) .self) (.unary (by decide) .self))
  | cot => exact .neg (.squared (.unary (by decide) .self))
  | exp => exact .unary (by decide) .self
  | ln => exact (Through.const _).div .self
  | sqrt => exact (Through.const _).div (.mul (.const _) (.unary (by decide) .self))
  | asin => exact arc
  | acos => exact arc.neg
  | atan => exact (Through.const _).div (.add (.const _) (.squared .self))

/-! ## The two orders -/

/-- Where both mixed derivatives are defined, they agree. -/
def Commutes (env : String → K) (v w : String) (t : Tree α) : Prop :=
  ((t.derivative v).derivative w).Defined env → ((t.derivative w).derivative v).Defined env →
    ((t.derivative v).derivative w).worth env = ((t.derivative w).derivative v).worth env

theorem Commutes.unary {op : UnaryOp} (hop : op ≠ .neg) (hu : u.Commutes env v w) :
    (Tree.unary op u).Commutes env v w := by
  intro hv hw
  rw [derivative_unary hop, derivative_mul] at hv hw ⊢
  rw [derivative_unary hop, derivative_mul]
  obtain ⟨hv₁, hv₂⟩ := defined_add.mp hv
  obtain ⟨hw₁, hw₂⟩ := defined_add.mp hw
  obtain ⟨k, hk⟩ : Through env u (outerDerivative op u) := through_outerDerivative op u
  rw [worth_add hv₁ hv₂, worth_add hw₁ hw₂, worth_mul, worth_mul, worth_mul, worth_mul,
    hk w (defined_mul.mp hv₁).1, hk v (defined_mul.mp hw₁).1,
    hu (defined_mul.mp hv₂).2 (defined_mul.mp hw₂).2]
  ring

theorem Commutes.add (hf : f.Commutes env v w) (hg : g.Commutes env v w) :
    (Tree.binary .add f g).Commutes env v w := by
  intro hv hw
  obtain ⟨hfv, hgv⟩ := defined_add.mp hv
  obtain ⟨hfw, hgw⟩ := defined_add.mp hw
  simp only [derivative_add, worth_add hfv hgv, worth_add hfw hgw, hf hfv hfw, hg hgv hgw]

theorem Commutes.sub (hf : f.Commutes env v w) (hg : g.Commutes env v w) :
    (Tree.binary .sub f g).Commutes env v w := by
  intro hv hw
  obtain ⟨hfv, hgv⟩ := defined_sub.mp hv
  obtain ⟨hfw, hgw⟩ := defined_sub.mp hw
  simp only [derivative_sub, worth_sub hfv hgv, worth_sub hfw hgw, hf hfv hfw, hg hgv hgw]

theorem Commutes.mul (hf : f.Commutes env v w) (hg : g.Commutes env v w) :
    (Tree.binary .mul f g).Commutes env v w := by
  intro hv hw
  simp only [derivative_mul, derivative_add, defined_add, defined_mul] at hv hw
  obtain ⟨⟨⟨hfvw, hg₀⟩, hfv, hgw⟩, ⟨hfw, hgv⟩, hf₀, hgvw⟩ := hv
  obtain ⟨⟨⟨hfwv, -⟩, -⟩, -, -, hgwv⟩ := hw
  have hff := hf hfvw hfwv
  have hgg := hg hgvw hgwv
  simp only [derivative_mul, derivative_add, worth_add, worth_mul, defined_add, defined_mul,
    and_self, *]
  ring

theorem Commutes.div (hf : f.Commutes env v w) (hg : g.Commutes env v w) :
    (Tree.binary .div f g).Commutes env v w := by
  intro hv hw
  simp only [derivative_div, derivative_sub, derivative_mul, defined_add, defined_sub, defined_mul,
    defined_div] at hv hw
  -- the numerators; the denominators are the same tree
  obtain ⟨⟨⟨⟨⟨hfvw, hg₀⟩, hfv, hgw⟩, ⟨hfw, hgv⟩, hf₀, hgvw⟩, -⟩, -⟩ := hv.1
  obtain ⟨⟨⟨⟨⟨hfwv, -⟩, -⟩, -, -, hgwv⟩, -⟩, -⟩ := hw.1
  have hff := hf hfvw hfwv
  have hgg := hg hgvw hgwv
  clear hv hw
  simp only [derivative_div, derivative_sub, derivative_mul, worth_add, worth_sub, worth_mul,
    worth_div, defined_add, defined_sub, defined_mul, and_self, *]
  ring

theorem Commutes.branch {c : Tree α} (ht : t.Commutes env v w) (hf : f.Commutes env v w) :
    (Tree.branch c t f).Commutes env v w := by
  intro hv hw
  obtain ⟨x, hx, hxz⟩ := exact_branch_eq_some.mp hv.exact_eq
  obtain ⟨y, hy, hyz⟩ := exact_branch_eq_some.mp hw.exact_eq
  obtain rfl := Option.some.inj (hx.symm.trans hy)
  split at hxz <;> rename_i h₀
  · rw [if_pos h₀] at hyz
    rw [← worth_eq hxz, ← worth_eq hyz, hf ⟨_, hxz⟩ ⟨_, hyz⟩]
  · rw [if_neg h₀] at hyz
    rw [← worth_eq hxz, ← worth_eq hyz, ht ⟨_, hxz⟩ ⟨_, hyz⟩]

/-- It is enough for the two derivatives to be defined where the tree
mentions the variable that comes first. -/
theorem Commutes.worth_eq (h : t.Commutes env v w)
    (hv : t.mentions v = true → ((t.derivative v).derivative w).Defined env)
    (hw : t.mentions w = true → ((t.derivative w).derivative v).Defined env) :
    ((t.derivative v).derivative w).worth env = ((t.derivative w).derivative v).worth env := by
  cases hmv : t.mentions v with
  | false => rw [worth_mixed_eq_zero (.inl hmv), worth_mixed_eq_zero (.inr hmv)]
  | true =>
    cases hmw : t.mentions w with
    | false => rw [worth_mixed_eq_zero (.inr hmw), worth_mixed_eq_zero (.inl hmw)]
    | true => exact h (hv hmv) (hw hmw)

/-! ## Powers -/

theorem worth_lowered (hg : g.Defined env) (h : (lowered g).Defined env) :
    (lowered g).worth env = g.worth env - 1 := by
  unfold lowered at h ⊢
  split
  · exact Tree.worth_eq (Exact.reading_sub hg.exact_eq Exact.reading_one)
  · rw [worth_sub hg defined_one, worth_one]

theorem worth_derivative_lowered (h : (g.derivative w).Defined env) :
    ((lowered g).derivative w).worth env = (g.derivative w).worth env := by
  unfold lowered
  split
  · rfl
  · rw [derivative_sub, one, derivative, worth_sub h defined_zero, worth_zero, sub_zero]

/-- The derivative of the base is differentiated again, unless it vanishes. -/
theorem defined_second_base
    (h : (((Tree.binary .pow f g).derivative v).derivative w).Defined env)
    (hf : f.mentions v = true) : ((f.derivative v).derivative w).Defined env := by
  cases hg : g.mentions v with
  | false =>
    rw [derivative_pow_exponent_free hg] at h
    exact (defined_mul.mp (defined_add.mp h).2).2
  | true =>
    rw [derivative_pow_both hf hg] at h
    have hq := (defined_add.mp (defined_mul.mp (defined_add.mp h).2).2).2
    have hn := (defined_add.mp (defined_mul.mp (defined_sub.mp (defined_div.mp hq).1).1).1).2
    exact (defined_mul.mp hn).2

/-- So is the derivative of the exponent; and then the base is positive,
since it has a logarithm. -/
theorem defined_second_exponent
    (h : (((Tree.binary .pow f g).derivative v).derivative w).Defined env)
    (hg : g.mentions v = true) :
    ((g.derivative v).derivative w).Defined env ∧ (Tree.binary .pow f g).Defined env ∧
      (Tree.unary .ln f).Defined env := by
  cases hf : f.mentions v with
  | false =>
    rw [derivative_pow_base_free hf hg] at h
    obtain ⟨h₁, h₂⟩ := defined_add.mp h
    obtain ⟨hP, h₂⟩ := defined_mul.mp h₂
    exact ⟨(defined_mul.mp (defined_add.mp h₂).2).2, hP, (defined_mul.mp (defined_mul.mp h₁).2).1⟩
  | true =>
    rw [derivative_pow_both hf hg] at h
    obtain ⟨hP, h₂⟩ := defined_mul.mp (defined_add.mp h).2
    obtain ⟨h₃, h₄⟩ := defined_add.mp (defined_add.mp h₂).1
    exact ⟨(defined_mul.mp h₃).1, hP, (defined_mul.mp h₃).2⟩

/-- The derivative of `g * ln f`. -/
def slope (env : String → K) (f g : Tree α) (w : String) : K :=
  (g.derivative w).worth env * (Tree.unary .ln f).worth env +
    g.worth env * (f.derivative w).worth env / f.worth env

theorem worth_derivative_log :
    ((Tree.unary .ln f).derivative w).worth env =
      (f.derivative w).worth env / f.worth env := by
  rw [derivative_unary (by decide), outerDerivative, worth_mul, worth_div, worth_one,
    div_mul_eq_mul_div, one_mul]

/-- Where the exponent mentions neither variable, only the power rule is
used, and the sign of the base does not matter. -/
theorem worth_second_pow_exponent_free (hgv : g.mentions v = false) (hgw : g.mentions w = false)
    (h : (((Tree.binary .pow f g).derivative v).derivative w).Defined env) :
    (((Tree.binary .pow f g).derivative v).derivative w).worth env =
      g.worth env * ((lowered g).worth env * (Tree.binary .pow f (lowered (lowered g))).worth env) *
          ((f.derivative v).worth env * (f.derivative w).worth env) +
        g.worth env * (Tree.binary .pow f (lowered g)).worth env *
          ((f.derivative v).derivative w).worth env := by
  have hlow : (lowered g).mentions w = false := by rw [mentions_lowered, hgw]
  simp only [derivative_pow_exponent_free hgv, derivative_mul, derivative_pow_exponent_free hlow,
    defined_add, defined_mul] at h
  obtain ⟨⟨⟨⟨hgw', hQ⟩, hg, ⟨hl, hR⟩, hfw⟩, hfv⟩, -, hfvw⟩ := h
  simp only [derivative_pow_exponent_free hgv, derivative_mul, derivative_pow_exponent_free hlow,
    worth_add, worth_mul, defined_add, defined_mul, and_self, worth_derivative_of_not_mentions hgw,
    hgw', hQ, hg, hl, hR, hfw, hfv, hfvw]
  ring

variable [PositivePowers K]

theorem pos_of_defined_ln (h : (Tree.unary .ln f).Defined env) : 0 < f.worth env := by
  obtain ⟨x, hx, hz⟩ := exact_unary_eq_some.mp h.exact_eq
  rw [Tree.worth_eq hx]
  exact PositivePowers.pos_of_ln hz

theorem worth_pow_lowered (hf : 0 < f.worth env) (hP : (Tree.binary .pow f g).Defined env)
    (h : (Tree.binary .pow f (lowered g)).Defined env) :
    (Tree.binary .pow f (lowered g)).worth env =
      (Tree.binary .pow f g).worth env / f.worth env := by
  obtain ⟨x, y, hx, hy, hp⟩ := exact_pow_eq_some.mp hP.exact_eq
  obtain ⟨x', z, hx', hz, hq⟩ := exact_pow_eq_some.mp h.exact_eq
  obtain rfl := Option.some.inj (hx.symm.trans hx')
  have hz₁ : z = y - 1 := by
    rw [← Tree.worth_eq hz, ← Tree.worth_eq hy, worth_lowered ⟨y, hy⟩ ⟨z, hz⟩]
  rw [Tree.worth_eq hx] at hf ⊢
  rw [hz₁] at hq
  rw [eq_div_iff hf.ne', PositivePowers.power_sub_one_mul hf hq hp]

/-- At a positive base every rule is logarithmic differentiation. -/
theorem worth_derivative_pow (hf : 0 < f.worth env) (hP : (Tree.binary .pow f g).Defined env)
    (h : ((Tree.binary .pow f g).derivative w).Defined env) :
    ((Tree.binary .pow f g).derivative w).worth env =
      (Tree.binary .pow f g).worth env * slope env f g w := by
  cases hgw : g.mentions w with
  | false =>
    rw [derivative_pow_exponent_free hgw] at h ⊢
    have hQ := (defined_mul.mp (defined_mul.mp h).1).2
    rw [worth_mul, worth_mul, worth_pow_lowered hf hP hQ, slope,
      worth_derivative_of_not_mentions hgw]
    ring
  | true =>
    cases hfw : f.mentions w with
    | false =>
      rw [derivative_pow_base_free hfw hgw, worth_mul, worth_mul, slope,
        worth_derivative_of_not_mentions hfw]
      ring
    | true =>
      rw [derivative_pow_both hfw hgw] at h ⊢
      obtain ⟨hl, hr⟩ := defined_add.mp (defined_mul.mp h).2
      rw [worth_mul, worth_add hl hr, worth_mul, worth_div, worth_mul, slope]

/-- The mixed derivative of `f ^ g` at a positive base, from the values,
the derivatives and the mixed derivatives of `f` and `g`. It is symmetric
in the variables if the last are. -/
theorem worth_second_pow (hf : 0 < f.worth env) (hP : (Tree.binary .pow f g).Defined env)
    (h : (((Tree.binary .pow f g).derivative v).derivative w).Defined env) :
    (((Tree.binary .pow f g).derivative v).derivative w).worth env =
      (Tree.binary .pow f g).worth env *
        (slope env f g v * slope env f g w +
          ((g.derivative v).derivative w).worth env * (Tree.unary .ln f).worth env +
          (g.derivative v).worth env * (f.derivative w).worth env / f.worth env +
          (g.derivative w).worth env * (f.derivative v).worth env / f.worth env +
          g.worth env * ((f.derivative v).derivative w).worth env / f.worth env -
          g.worth env * (f.derivative v).worth env * (f.derivative w).worth env /
            f.worth env ^ 2) := by
  have hf₀ := hf.ne'
  cases hgv : g.mentions v with
  | false =>
    rw [derivative_pow_exponent_free hgv] at h ⊢
    simp only [derivative_mul, defined_add, defined_mul] at h
    obtain ⟨⟨⟨⟨hgw, hQ⟩, hg, hQw⟩, hfv⟩, -, hfvw⟩ := h
    obtain ⟨-, y, -, hy, -⟩ := exact_pow_eq_some.mp hQ.exact_eq
    have hQ₀ := worth_pow_lowered hf hP hQ
    have hQ₁ := worth_derivative_pow hf hQ hQw
    simp only [slope, worth_lowered hg ⟨y, hy⟩, worth_derivative_lowered hgw] at hQ₁
    simp only [derivative_mul, worth_add, worth_mul, defined_add, defined_mul, and_self, slope, hQ₁,
      hQ₀, worth_derivative_of_not_mentions hgv, worth_mixed_eq_zero (.inl hgv), hgw, hQ, hg, hQw,
      hfv, hfvw]
    field_simp
    ring
  | true =>
    cases hfv : f.mentions v with
    | false =>
      rw [derivative_pow_base_free hfv hgv] at h ⊢
      simp only [derivative_mul, defined_add, defined_mul] at h
      obtain ⟨⟨hPw, hL, hgv'⟩, -, ⟨hLw, -⟩, -, hgvw⟩ := h
      simp only [derivative_mul, worth_add, worth_mul, defined_add, defined_mul, and_self, slope,
        worth_derivative_pow hf hP hPw, worth_derivative_log, worth_derivative_of_not_mentions hfv,
        worth_mixed_eq_zero (.inl hfv), hP, hPw, hL, hgv', hLw, hgvw]
      ring
    | true =>
      rw [derivative_pow_both hfv hgv] at h ⊢
      simp only [derivative_mul, derivative_add, derivative_div, defined_add, defined_sub,
        defined_mul, defined_div] at h
      obtain ⟨⟨hPw, ⟨hgv', hL⟩, -⟩, -, ⟨⟨hgvw, -⟩, -, hLw⟩, hn, -⟩ := h
      obtain ⟨⟨⟨⟨hgw, hfv'⟩, hg, hfvw⟩, hf'⟩, -, hfw⟩ := hn
      simp only [derivative_mul, derivative_add, derivative_div, worth_add, worth_sub, worth_mul,
        worth_div, defined_add, defined_sub, defined_mul, defined_div, and_self, ne_eq, slope,
        worth_derivative_pow hf hP hPw, worth_derivative_log, mul_eq_zero, or_self,
        not_false_eq_true, hP, hPw, hL, hgv', hLw, hgvw, hgw, hfv', hg, hfvw, hf', hfw, hf₀]
      field_simp
      ring

theorem Commutes.pow (hf : f.Commutes env v w) (hg : g.Commutes env v w) :
    (Tree.binary .pow f g).Commutes env v w := by
  intro hv hw
  have hff := hf.worth_eq (defined_second_base hv) (defined_second_base hw)
  have hgg := hg.worth_eq (fun h => (defined_second_exponent hv h).1)
    (fun h => (defined_second_exponent hw h).1)
  cases hm : g.mentions v || g.mentions w with
  | false =>
    rw [Bool.or_eq_false_iff] at hm
    rw [worth_second_pow_exponent_free hm.1 hm.2 hv, worth_second_pow_exponent_free hm.2 hm.1 hw,
      hff]
    ring
  | true =>
    have hP : (Tree.binary .pow f g).Defined env ∧ (Tree.unary .ln f).Defined env := by
      rcases Bool.or_eq_true_iff.mp hm with h | h
      · exact (defined_second_exponent hv h).2
      · exact (defined_second_exponent hw h).2
    have hpos := pos_of_defined_ln hP.2
    rw [worth_second_pow hpos hP.1 hv, worth_second_pow hpos hP.1 hw, hff, hgg]
    ring

/-! ## Every tree -/

theorem commutes (t : Tree α) : t.Commutes env v w := by
  induction t with
  | var x =>
    intro _ _
    simp only [derivative]
    split <;> split <;> simp [one, zero, derivative]
  | const a => exact fun _ _ => rfl
  | binary op f g hf hg =>
    cases op with
    | add => exact hf.add hg
    | sub => exact hf.sub hg
    | mul => exact hf.mul hg
    | div => exact hf.div hg
    | pow => exact hf.pow hg
  | unary op u hu =>
    by_cases hop : op = .neg
    · subst hop
      intro hv hw
      simp only [derivative, defined_neg] at hv hw
      simp only [derivative, worth_neg, hu hv hw]
    · exact hu.unary hop
  | relate rel l r _ _ => exact fun _ _ => rfl
  | branch c t f _ ht hf => exact ht.branch hf

/-- **Mixed partial derivatives commute** wherever both are defined. -/
theorem derivative_comm (t : Tree α) (v w : String) (env : String → K) (x y : K)
    (hx : ((t.derivative v).derivative w).exact env = some x)
    (hy : ((t.derivative w).derivative v).exact env = some y) : x = y := by
  rw [← Tree.worth_eq hx, ← Tree.worth_eq hy]
  exact t.commutes ⟨x, hx⟩ ⟨y, hy⟩

/-- `x ^ y` at two and two, where the order `x`, `y` begins with the power
rule and the order `y`, `x` with the exponential rule. -/
theorem derivative_comm_power :
    ∃ a b, (((Tree.binary .pow (.var "x") (.var "y") : Tree Closed).derivative "x").derivative
        "y").exact (fun _ => (2 : ℝ)) = some a ∧
      (((Tree.binary .pow (.var "x") (.var "y") : Tree Closed).derivative "y").derivative
        "x").exact (fun _ => (2 : ℝ)) = some b ∧ a = b := by
  have base {e : Tree Closed} (he : e.Defined (fun _ => (2 : ℝ))) :
      (Tree.binary .pow (.var "x") e).Defined (fun _ => (2 : ℝ)) :=
    defined_pow.mpr ⟨defined_var _, he, .inl (by simp)⟩
  have ln : (Tree.unary .ln (.var "x") : Tree Closed).Defined (fun _ => (2 : ℝ)) :=
    defined_unary.mpr ⟨defined_var _, by simp [UnaryOp.Domain]⟩
  have unit : (Tree.const Scalar.one : Tree Closed).Defined (fun _ => (2 : ℝ)) := defined_one
  have hxy : (((Tree.binary .pow (.var "x") (.var "y") : Tree Closed).derivative "x").derivative
      "y").Defined (fun _ => (2 : ℝ)) := by
    simp [derivative, binaryRule, powerRule, mentions, lowered, one, unit, base, ln]
  have hyx : (((Tree.binary .pow (.var "x") (.var "y") : Tree Closed).derivative "y").derivative
      "x").Defined (fun _ => (2 : ℝ)) := by
    simp [derivative, binaryRule, powerRule, outerDerivative, mentions, lowered, one, unit, base,
      ln]
  exact ⟨_, _, hxy.exact_eq, hyx.exact_eq,
    derivative_comm (.binary .pow (.var "x") (.var "y")) "x" "y" _ _ _ hxy.exact_eq hyx.exact_eq⟩

end Tree

end Fluxion
