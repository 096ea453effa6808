/-
The derivative of a tree is the derivative of its value.

The tree is seen as a function of one variable (`along`), every other
variable held fixed. What is asked of the point is that the tree be defined
all around it, that its comparisons and conditionals be decided there as
they are at the point (`SameDecisions`), and that the symbolic derivative
have a value at it. The last condition excludes the corners: at zero the
square root has no symbolic derivative, and `f ^ g` with `g` free of the
variable has one only if `f` is not zero or `g` is at least one.
-/
import Mathlib
import Fluxion.Derivative
import Fluxion.Proofs.Exact.Closed

namespace Fluxion.Tree

open Filter Topology

variable {α : Type} [Scalar α] [Exact α ℝ]

/-! ## A tree as a function of one variable -/

/-- The value of the tree when `v` is `x` and all else as in `r`; zero
where there is none. -/
noncomputable def along (r : String → ℝ) (v : String) (t : Tree α) (x : ℝ) : ℝ :=
  (t.exact (Function.update r v x)).getD 0

/-- The tree has a value for all values of `v` near the one in `r`. -/
def DefinedNear (r : String → ℝ) (v : String) (t : Tree α) : Prop :=
  ∀ᶠ x in 𝓝 (r v), (t.exact (Function.update r v x)).isSome = true

/-- At `s` the comparisons that the tree evaluates at `r` have the values
they have at `r`, and its conditionals take the same branches. -/
def SameDecisions (r s : String → ℝ) : Tree α → Prop
  | .var _ | .const _ => True
  | .binary _ l u => l.SameDecisions r s ∧ u.SameDecisions r s
  | .unary _ u => u.SameDecisions r s
  | .relate rel l u =>
    l.SameDecisions r s ∧ u.SameDecisions r s ∧
      (Tree.relate rel l u).exact s = (Tree.relate rel l u).exact r
  | .branch c t f =>
    c.SameDecisions r s ∧ (c.exact s = some 0 ↔ c.exact r = some 0) ∧
      (c.exact r = some 0 → f.SameDecisions r s) ∧ (c.exact r ≠ some 0 → t.SameDecisions r s)

variable {r : String → ℝ} {v : String}

theorem exact_eq_along {t : Tree α} {x : ℝ} (h : (t.exact (Function.update r v x)).isSome = true) :
    t.exact (Function.update r v x) = some (t.along r v x) := by
  obtain ⟨y, hy⟩ := Option.isSome_iff_exists.mp h
  simp [along, hy]

theorem along_eq {t : Tree α} {x y : ℝ} (h : t.exact (Function.update r v x) = some y) :
    t.along r v x = y := by
  simp [along, h]

theorem along_self {t : Tree α} {y : ℝ} (h : t.exact r = some y) : t.along r v (r v) = y :=
  along_eq (by rwa [Function.update_eq_self])

theorem DefinedNear.self {t : Tree α} (h : t.DefinedNear r v) : ∃ y, t.exact r = some y := by
  have h' : ∀ᶠ x in 𝓝 (r v), (t.exact (Function.update r v x)).isSome = true := h
  have hy := h'.self_of_nhds
  rw [Function.update_eq_self] at hy
  exact Option.isSome_iff_exists.mp hy

theorem DefinedNear.binary {op : BinaryOp} {l u : Tree α}
    (h : (Tree.binary op l u).DefinedNear r v) :
    l.DefinedNear r v ∧ u.DefinedNear r v ∧
      ∀ᶠ x in 𝓝 (r v), op.exact (l.along r v x) (u.along r v x) =
        some ((Tree.binary op l u).along r v x) := by
  have key : ∀ᶠ x in 𝓝 (r v), (l.exact (Function.update r v x)).isSome = true ∧
      (u.exact (Function.update r v x)).isSome = true ∧
      op.exact (l.along r v x) (u.along r v x) = some ((Tree.binary op l u).along r v x) := by
    filter_upwards [h] with x hx
    obtain ⟨a, b, ha, hb, hz⟩ := exact_binary_eq_some.mp (exact_eq_along hx)
    refine ⟨by simp [ha], by simp [hb], ?_⟩
    rw [along_eq ha, along_eq hb, hz]
  exact ⟨key.mono fun _ hx => hx.1, key.mono fun _ hx => hx.2.1, key.mono fun _ hx => hx.2.2⟩

theorem DefinedNear.unary {op : UnaryOp} {u : Tree α} (h : (Tree.unary op u).DefinedNear r v) :
    u.DefinedNear r v ∧
      (Tree.unary op u).along r v =ᶠ[𝓝 (r v)] fun x => op.real (u.along r v x) := by
  have key : ∀ᶠ x in 𝓝 (r v), (u.exact (Function.update r v x)).isSome = true ∧
      (Tree.unary op u).along r v x = op.real (u.along r v x) := by
    filter_upwards [h] with x hx
    obtain ⟨a, ha, hz⟩ := exact_unary_eq_some.mp (exact_eq_along hx)
    refine ⟨by simp [ha], ?_⟩
    rw [along_eq ha, (UnaryOp.exact_eq_some.mp hz).2]
  exact ⟨key.mono fun _ hx => hx.1, key.mono fun _ hx => hx.2⟩

/-- Near a point where its test is decided, a conditional is the branch
that the test selects. -/
theorem DefinedNear.branch {c t f u : Tree α} (h : (Tree.branch c t f).DefinedNear r v)
    (hu : ∀ᶠ x in 𝓝 (r v), (c.exact (Function.update r v x) = some 0 → f = u) ∧
      (c.exact (Function.update r v x) ≠ some 0 → t = u)) :
    u.DefinedNear r v ∧ (Tree.branch c t f).along r v =ᶠ[𝓝 (r v)] u.along r v := by
  have key : ∀ᶠ x in 𝓝 (r v), (u.exact (Function.update r v x)).isSome = true ∧
      (Tree.branch c t f).along r v x = u.along r v x := by
    filter_upwards [h, hu] with x hx hux
    obtain ⟨a, ha, hz⟩ := exact_branch_eq_some.mp (exact_eq_along hx)
    have hz' : u.exact (Function.update r v x) = some ((Tree.branch c t f).along r v x) := by
      split at hz
      · next h₀ => rw [← hux.1 (by rw [ha, h₀])]; exact hz
      · next h₀ => rw [← hux.2 (by rw [ha]; simpa using h₀)]; exact hz
    exact ⟨by simp [hz'], (along_eq hz').symm⟩
  exact ⟨key.mono fun _ hx => hx.1, key.mono fun _ hx => hx.2⟩

/-! ## Functions -/

omit [Exact α ℝ] in
theorem derivative_unary {op : UnaryOp} (h : op ≠ .neg) (u : Tree α) :
    derivative v (.unary op u) = .binary .mul (outerDerivative op u) (derivative v u) := by
  cases op <;> first | rfl | exact absurd rfl h

theorem real_of_exact {op : UnaryOp} {u : Tree α} {x z : ℝ} (hu : u.exact r = some x)
    (hz : (Tree.unary op u).exact r = some z) : z = op.real x := by
  obtain ⟨a, ha, hp⟩ := exact_unary_eq_some.mp hz
  obtain rfl := Option.some.inj (ha.symm.trans hu)
  exact (UnaryOp.exact_eq_some.mp hp).2.symm

theorem exact_squared {u : Tree α} {x z : ℝ} (hu : u.exact r = some x)
    (hz : (squared u).exact r = some z) : z = x ^ 2 := by
  obtain ⟨a, b, ha, hb, hp⟩ := exact_pow_eq_some.mp hz
  obtain rfl := Option.some.inj (ha.symm.trans hu)
  obtain rfl := Option.some.inj (hb.symm.trans exact_two)
  exact (Option.some.inj ((power_two a).symm.trans hp)).symm

/-- The quotient in the derivatives of the inverse sine and cosine: it has
no value at the ends of their domain. -/
theorem exact_arc {u : Tree α} {x z : ℝ} (hu : u.exact r = some x)
    (hz : (Tree.binary .div one
      (.unary .sqrt (.binary .sub one (squared u)))).exact r = some z) :
    z = 1 / √(1 - x ^ 2) ∧ x ≠ -1 ∧ x ≠ 1 := by
  obtain ⟨a, b, ha, hb, hne, rfl⟩ := exact_div_eq_some.mp hz
  obtain rfl := Option.some.inj (ha.symm.trans exact_one)
  obtain ⟨c, hc, hp⟩ := exact_unary_eq_some.mp hb
  obtain ⟨p, q, hp', hq, rfl⟩ := exact_sub_eq_some.mp hc
  obtain rfl := Option.some.inj (hp'.symm.trans exact_one)
  obtain rfl := exact_squared hu hq
  have hb' : b = √(1 - x ^ 2) := (UnaryOp.exact_eq_some.mp hp).2.symm
  rw [hb'] at hne ⊢
  refine ⟨rfl, ?_, ?_⟩ <;> rintro rfl <;> simp at hne

/-- Where the outer derivative has a value, it is the derivative of the
function. At the ends of a domain it has none. -/
theorem hasDerivAt_outer {op : UnaryOp} {u : Tree α} {x k : ℝ} (hu : u.exact r = some x)
    (hx : op.Domain x) (hk : (outerDerivative op u).exact r = some k) :
    HasDerivAt op.real k x := by
  have value {o : UnaryOp} (h : o.Domain x) : (Tree.unary o u).exact r = some (o.real x) :=
    exact_unary_eq_some.mpr ⟨x, hu, UnaryOp.exact_eq_some.mpr ⟨h, rfl⟩⟩
  cases op with
  | neg =>
    obtain ⟨a, ha, rfl⟩ := exact_neg_eq_some.mp hk
    obtain rfl := Option.some.inj (ha.symm.trans exact_one)
    exact hasDerivAt_neg x
  | sin => rw [real_of_exact hu hk]; exact Real.hasDerivAt_sin x
  | cos =>
    obtain ⟨a, ha, rfl⟩ := exact_neg_eq_some.mp hk
    rw [real_of_exact hu ha]; exact Real.hasDerivAt_cos x
  | tan =>
    rw [exact_squared (value (o := .sec) hx) hk]
    refine (Real.hasDerivAt_tan hx).congr_deriv ?_
    simp [UnaryOp.real]
  | sec =>
    obtain ⟨a, b, ha, hb, rfl⟩ := exact_mul_eq_some.mp hk
    have hx : Real.cos x ≠ 0 := hx
    rw [real_of_exact hu ha, real_of_exact hu hb]
    have h := (hasDerivAt_const x (1 : ℝ)).fun_div (Real.hasDerivAt_cos x) hx
    refine h.congr_deriv ?_
    simp only [UnaryOp.real, Real.tan_eq_sin_div_cos]
    field_simp
    ring
  | csc =>
    obtain ⟨c, hc, rfl⟩ := exact_neg_eq_some.mp hk
    obtain ⟨a, b, ha, hb, rfl⟩ := exact_mul_eq_some.mp hc
    have hx : Real.sin x ≠ 0 := hx
    rw [real_of_exact hu ha, real_of_exact hu hb]
    have h := (hasDerivAt_const x (1 : ℝ)).fun_div (Real.hasDerivAt_sin x) hx
    refine h.congr_deriv ?_
    simp only [UnaryOp.real]
    field_simp
    ring
  | cot =>
    obtain ⟨c, hc, rfl⟩ := exact_neg_eq_some.mp hk
    have hx : Real.sin x ≠ 0 := hx
    rw [exact_squared (value (o := .csc) hx) hc]
    have h := (Real.hasDerivAt_cos x).fun_div (Real.hasDerivAt_sin x) hx
    refine h.congr_deriv ?_
    simp only [UnaryOp.real]
    field_simp
    linarith [Real.sin_sq_add_cos_sq x]
  | exp => rw [real_of_exact hu hk]; exact Real.hasDerivAt_exp x
  | ln =>
    obtain ⟨a, b, ha, hb, hne, rfl⟩ := exact_div_eq_some.mp hk
    obtain rfl := Option.some.inj (ha.symm.trans exact_one)
    obtain rfl := Option.some.inj (hb.symm.trans hu)
    rw [one_div]; exact Real.hasDerivAt_log hne
  | sqrt =>
    obtain ⟨a, b, ha, hb, hne, rfl⟩ := exact_div_eq_some.mp hk
    obtain ⟨c, d, hc, hd, rfl⟩ := exact_mul_eq_some.mp hb
    obtain rfl := Option.some.inj (ha.symm.trans exact_one)
    obtain rfl := Option.some.inj (hc.symm.trans exact_two)
    have hd' : d = √x := real_of_exact hu hd
    rw [hd'] at hne ⊢
    refine Real.hasDerivAt_sqrt ?_
    rintro rfl
    simp at hne
  | asin =>
    obtain ⟨h, h₁, h₂⟩ := exact_arc hu hk
    rw [h]; exact Real.hasDerivAt_arcsin h₁ h₂
  | acos =>
    obtain ⟨c, hc, rfl⟩ := exact_neg_eq_some.mp hk
    obtain ⟨h, h₁, h₂⟩ := exact_arc hu hc
    rw [h]; exact Real.hasDerivAt_arccos h₁ h₂
  | atan =>
    obtain ⟨a, b, ha, hb, -, rfl⟩ := exact_div_eq_some.mp hk
    obtain ⟨c, d, hc, hd, rfl⟩ := exact_add_eq_some.mp hb
    obtain rfl := Option.some.inj (ha.symm.trans exact_one)
    obtain rfl := Option.some.inj (hc.symm.trans exact_one)
    rw [exact_squared hu hd]; exact Real.hasDerivAt_arctan x

/-! ## Powers -/

/-- The power rule for an exponent that does not change. It needs no case
distinction on the sign of the base: where the lowered power is defined,
the base is not zero or the exponent is at least one. -/
theorem hasDerivAt_power {f : ℝ → ℝ} {f' x y q : ℝ} (hf : HasDerivAt f f' x)
    (hq : Elementary.power (f x) (y - 1) = some q) :
    HasDerivAt (fun t => f t ^ y) (y * q * f') x := by
  obtain ⟨hd, rfl⟩ := power_eq_some.mp hq
  have h : f x ≠ 0 ∨ 1 ≤ y := by
    rcases hd with h | ⟨-, h⟩ | ⟨h, -⟩
    · exact .inl h.ne'
    · exact .inr (by linarith)
    · exact .inl h.ne
  exact (hf.rpow_const h).congr_deriv (by ring)

/-- Lowering an exponent subtracts one from its value. -/
theorem exact_lowered {g : Tree α} {y z : ℝ} (hg : g.exact r = some y)
    (hz : (lowered g).exact r = some z) : z = y - 1 := by
  unfold lowered at hz
  split at hz
  · exact Option.some.inj (hz.symm.trans (Exact.reading_sub hg Exact.reading_one))
  · obtain ⟨a, b, ha, hb, rfl⟩ := exact_sub_eq_some.mp hz
    obtain rfl := Option.some.inj (ha.symm.trans hg)
    obtain rfl := Option.some.inj (hb.symm.trans exact_one)
    rfl

theorem along_of_not_mentions {t : Tree α} (h : t.mentions v = false) {y : ℝ}
    (hy : t.exact r = some y) (x : ℝ) : t.along r v x = y :=
  along_eq (by rw [exact_update_of_not_mentions h, hy])

/-- The derivative of a power, from those of base and exponent where the
symbolic derivative uses them. -/
theorem hasDerivAt_pow_tree {l u : Tree α} {d : ℝ}
    (hdef : (Tree.binary .pow l u).DefinedNear r v)
    (hl : ∀ {a}, (l.derivative v).exact r = some a → HasDerivAt (l.along r v) a (r v))
    (hu : ∀ {b}, (u.derivative v).exact r = some b → HasDerivAt (u.along r v) b (r v))
    (hd : ((Tree.binary .pow l u).derivative v).exact r = some d) :
    HasDerivAt ((Tree.binary .pow l u).along r v) d (r v) := by
  obtain ⟨hl₀, hu₀, hpow⟩ := hdef.binary
  have heq : (Tree.binary .pow l u).along r v =ᶠ[𝓝 (r v)]
      fun x => l.along r v x ^ u.along r v x := by
    filter_upwards [hpow] with x hx
    exact (power_eq_some.mp hx).2.symm
  obtain ⟨x, hx⟩ := hl₀.self
  obtain ⟨y, hy⟩ := hu₀.self
  have hp : PowerDefined x y ∧ x ^ y = (Tree.binary .pow l u).along r v (r v) := by
    have := power_eq_some.mp hpow.self_of_nhds
    rwa [along_self hx, along_self hy] at this
  simp only [derivative, binaryRule, powerRule] at hd
  split at hd
  · next hmu =>
    -- the exponent is constant
    obtain ⟨c, a, hc, ha, rfl⟩ := exact_mul_eq_some.mp hd
    obtain ⟨y', q, hy', hq, rfl⟩ := exact_mul_eq_some.mp hc
    obtain rfl := Option.some.inj (hy'.symm.trans hy)
    obtain ⟨x', z, hx', hz, hq⟩ := exact_pow_eq_some.mp hq
    obtain rfl := Option.some.inj (hx'.symm.trans hx)
    obtain rfl := exact_lowered hy hz
    have h := hasDerivAt_power (hl ha) (by rw [along_self hx]; exact hq)
    refine h.congr_of_eventuallyEq (heq.trans (.of_forall fun t => ?_))
    simp only [along_of_not_mentions (by simpa using hmu) hy t]
  split at hd
  · next hml =>
    -- the base is constant, and positive since it has a logarithm
    obtain ⟨p, c, hp', hc, rfl⟩ := exact_mul_eq_some.mp hd
    obtain ⟨k, b, hk, hb, rfl⟩ := exact_mul_eq_some.mp hc
    obtain ⟨x', hx', hln⟩ := exact_unary_eq_some.mp hk
    obtain rfl := Option.some.inj (hx'.symm.trans hx)
    obtain ⟨hpos, rfl⟩ := UnaryOp.exact_eq_some.mp hln
    have h := (hu hb).const_rpow (a := x') hpos
    have h' : (fun t => l.along r v t ^ u.along r v t) = fun t => x' ^ u.along r v t :=
      funext fun t => by rw [along_of_not_mentions (by simpa using hml) hx t]
    refine (h.congr_of_eventuallyEq (heq.trans (h' ▸ .rfl))).congr_deriv ?_
    rw [← along_self hp', ← hp.2, along_self hy]
    simp only [UnaryOp.real]
    ring
  · -- neither is constant: logarithmic differentiation
    obtain ⟨p, c, hp', hc, rfl⟩ := exact_mul_eq_some.mp hd
    obtain ⟨s, q, hs, hq, rfl⟩ := exact_add_eq_some.mp hc
    obtain ⟨b, k, hb, hk, rfl⟩ := exact_mul_eq_some.mp hs
    obtain ⟨m, x₁, hm, hx₁, hne, rfl⟩ := exact_div_eq_some.mp hq
    obtain ⟨y₁, a, hy₁, ha, rfl⟩ := exact_mul_eq_some.mp hm
    obtain rfl := Option.some.inj (hx₁.symm.trans hx)
    obtain rfl := Option.some.inj (hy₁.symm.trans hy)
    obtain ⟨x₂, hx₂, hln⟩ := exact_unary_eq_some.mp hk
    obtain rfl := Option.some.inj (hx₂.symm.trans hx)
    obtain ⟨hpos, rfl⟩ := UnaryOp.exact_eq_some.mp hln
    have hpos : 0 < x₂ := hpos
    have h := (hl ha).rpow (hu hb) (by rw [along_self hx]; exact hpos)
    refine (h.congr_of_eventuallyEq heq).congr_deriv ?_
    rw [← along_self hp', ← hp.2, along_self hx, along_self hy, Real.rpow_sub_one hne]
    simp only [UnaryOp.real]
    ring

/-! ## Every tree -/

theorem hasDerivAt_binary {op : BinaryOp} {l u : Tree α} {d : ℝ}
    (hdef : (Tree.binary op l u).DefinedNear r v)
    (hl : ∀ {a}, (l.derivative v).exact r = some a → HasDerivAt (l.along r v) a (r v))
    (hu : ∀ {b}, (u.derivative v).exact r = some b → HasDerivAt (u.along r v) b (r v))
    (hd : ((Tree.binary op l u).derivative v).exact r = some d) :
    HasDerivAt ((Tree.binary op l u).along r v) d (r v) := by
  obtain ⟨hl₀, hu₀, hop⟩ := hdef.binary
  obtain ⟨x, hx⟩ := hl₀.self
  obtain ⟨y, hy⟩ := hu₀.self
  cases op with
  | add =>
    obtain ⟨a, b, ha, hb, rfl⟩ := exact_add_eq_some.mp hd
    refine ((hl ha).fun_add (hu hb)).congr_of_eventuallyEq ?_
    filter_upwards [hop] with s hs
    exact (Option.some.inj hs).symm
  | sub =>
    obtain ⟨a, b, ha, hb, rfl⟩ := exact_sub_eq_some.mp hd
    refine ((hl ha).fun_sub (hu hb)).congr_of_eventuallyEq ?_
    filter_upwards [hop] with s hs
    exact (Option.some.inj hs).symm
  | mul =>
    obtain ⟨p, q, hp, hq, rfl⟩ := exact_add_eq_some.mp hd
    obtain ⟨a, y', ha, hy', rfl⟩ := exact_mul_eq_some.mp hp
    obtain ⟨x', b, hx', hb, rfl⟩ := exact_mul_eq_some.mp hq
    rw [← along_self (v := v) hx', ← along_self (v := v) hy']
    refine ((hl ha).fun_mul (hu hb)).congr_of_eventuallyEq ?_
    filter_upwards [hop] with s hs
    exact (Option.some.inj hs).symm
  | div =>
    obtain ⟨n, m, hn, hm, hne, rfl⟩ := exact_div_eq_some.mp hd
    obtain ⟨p, q, hp, hq, rfl⟩ := exact_sub_eq_some.mp hn
    obtain ⟨a, y₁, ha, hy₁, rfl⟩ := exact_mul_eq_some.mp hp
    obtain ⟨x', b, hx', hb, rfl⟩ := exact_mul_eq_some.mp hq
    obtain ⟨y₂, y₃, hy₂, hy₃, rfl⟩ := exact_mul_eq_some.mp hm
    obtain rfl := Option.some.inj (hx'.symm.trans hx)
    obtain rfl := Option.some.inj (hy₁.symm.trans hy)
    obtain rfl := Option.some.inj (hy₂.symm.trans hy)
    obtain rfl := Option.some.inj (hy₃.symm.trans hy)
    have hne : u.along r v (r v) ≠ 0 := by
      rw [along_self hy]
      exact left_ne_zero_of_mul hne
    have h := (hl ha).fun_div (hu hb) hne
    rw [along_self hx, along_self hy] at h
    rw [← pow_two]
    refine h.congr_of_eventuallyEq ?_
    filter_upwards [hop] with s hs
    exact (BinaryOp.exact_div_eq_some.mp hs).2.symm
  | pow => exact hasDerivAt_pow_tree hdef hl hu hd

/-- The chain rule, the outer function being known by `hasDerivAt_outer`. -/
theorem hasDerivAt_unary {op : UnaryOp} {u : Tree α} {d : ℝ}
    (hdef : (Tree.unary op u).DefinedNear r v)
    (hu : ∀ {a}, (u.derivative v).exact r = some a → HasDerivAt (u.along r v) a (r v))
    (hd : ((Tree.unary op u).derivative v).exact r = some d) :
    HasDerivAt ((Tree.unary op u).along r v) d (r v) := by
  obtain ⟨hu₀, heq⟩ := hdef.unary
  by_cases hneg : op = .neg
  · subst hneg
    obtain ⟨a, ha, rfl⟩ := exact_neg_eq_some.mp hd
    exact (hu ha).fun_neg.congr_of_eventuallyEq heq
  · rw [derivative_unary hneg] at hd
    obtain ⟨k, a, hk, ha, rfl⟩ := exact_mul_eq_some.mp hd
    obtain ⟨y, hy⟩ := hdef.self
    obtain ⟨x, hx, hop⟩ := exact_unary_eq_some.mp hy
    have ho := hasDerivAt_outer hx (UnaryOp.exact_eq_some.mp hop).1 hk
    rw [← along_self (v := v) hx] at ho
    exact (ho.comp (r v) (hu ha)).congr_of_eventuallyEq heq

/-- By induction on the tree. A conditional is, around the point, the
branch it takes there, and a comparison is constant. -/
theorem hasDerivAt_along {t : Tree α} {d : ℝ} (hdef : t.DefinedNear r v)
    (hdec : ∀ᶠ x in 𝓝 (r v), t.SameDecisions r (Function.update r v x))
    (hd : (t.derivative v).exact r = some d) : HasDerivAt (t.along r v) d (r v) := by
  induction t generalizing d with
  | var s =>
    simp only [derivative] at hd
    split at hd
    · next h =>
      obtain rfl : s = v := by simpa using h
      obtain rfl := Option.some.inj (hd.symm.trans exact_one)
      have : (Tree.var s : Tree α).along r s = fun x => x := funext fun x => by simp [along]
      rw [this]
      exact hasDerivAt_id' (r s)
    · next h =>
      obtain rfl := Option.some.inj (hd.symm.trans exact_zero)
      have : (Tree.var s : Tree α).along r v = fun _ => r s :=
        funext fun x => along_of_not_mentions (by simpa [mentions] using h) rfl x
      rw [this]
      exact hasDerivAt_const (r v) (r s)
  | const a =>
    obtain rfl := Option.some.inj (hd.symm.trans exact_zero)
    obtain ⟨y, hy⟩ := hdef.self
    have : (Tree.const a).along r v = fun _ => y :=
      funext fun x => along_of_not_mentions rfl hy x
    rw [this]
    exact hasDerivAt_const (r v) y
  | binary op l u hl hu =>
    exact hasDerivAt_binary hdef (hl hdef.binary.1 (hdec.mono fun _ h => h.1))
      (hu hdef.binary.2.1 (hdec.mono fun _ h => h.2)) hd
  | unary op u hu => exact hasDerivAt_unary hdef (hu hdef.unary.1 hdec) hd
  | relate rel l u _ _ =>
    obtain rfl := Option.some.inj (hd.symm.trans exact_zero)
    obtain ⟨y, hy⟩ := hdef.self
    refine (hasDerivAt_const (r v) y).congr_of_eventuallyEq ?_
    filter_upwards [hdec] with x hx
    exact along_eq (hx.2.2.trans hy)
  | branch c t f _ ht hf =>
    obtain ⟨a, ha, hz⟩ := exact_branch_eq_some.mp hd
    by_cases h₀ : a = 0
    · subst h₀
      rw [if_pos rfl] at hz
      obtain ⟨hdef', heq⟩ := hdef.branch (u := f) (hdec.mono fun x hx =>
        ⟨fun _ => rfl, fun h => absurd (hx.2.1.mpr ha) h⟩)
      exact (hf hdef' (hdec.mono fun x hx => hx.2.2.1 ha) hz).congr_of_eventuallyEq heq
    · rw [if_neg h₀] at hz
      have hne : c.exact r ≠ some 0 := fun h => h₀ (Option.some.inj (ha.symm.trans h))
      obtain ⟨hdef', heq⟩ := hdef.branch (u := t) (hdec.mono fun x hx =>
        ⟨fun h => absurd (hx.2.1.mp h) hne, fun _ => rfl⟩)
      exact (ht hdef' (hdec.mono fun x hx => hx.2.2.2 hne) hz).congr_of_eventuallyEq heq

/-- Where a tree is defined and decided around a point, a value of the
symbolic derivative there is the derivative of the value of the tree. -/
theorem hasDerivAt_derivative (t : Tree α) (v : String) (r : String → ℝ) (d : ℝ)
    (hdef : ∀ᶠ x in 𝓝 (r v), (t.exact (Function.update r v x)).isSome = true)
    (hdec : ∀ᶠ x in 𝓝 (r v), t.SameDecisions r (Function.update r v x))
    (hd : (t.derivative v).exact r = some d) :
    HasDerivAt (fun x => (t.exact (Function.update r v x)).getD 0) d (r v) :=
  hasDerivAt_along hdef hdec hd

/-- The square at minus three, where the base is negative. -/
theorem hasDerivAt_derivative_square :
    HasDerivAt (fun x => ((Tree.binary .pow (.var "x") (.const (Closed.integer 2))).exact
      (Function.update (fun _ => -3) "x" x)).getD 0) (-6) (-3) := by
  have two (r : String → ℝ) : (Tree.const (Closed.integer 2)).exact r = some 2 := by simp
  refine hasDerivAt_derivative (.binary .pow (.var "x") (.const (Closed.integer 2))) "x"
    (fun _ => -3) (-6) (.of_forall fun x => ?_) (.of_forall fun x => ⟨trivial, trivial⟩) ?_
  · refine Option.isSome_iff_exists.mpr ⟨x ^ 2, exact_pow_eq_some.mpr ⟨x, 2, ?_, ?_, power_two x⟩⟩
    · rw [exact_var, Function.update_self]
    · exact two _
  · have lower : (Tree.const (Closed.integer 1)).exact (fun _ => (-3 : ℝ)) = some 1 :=
      congrArg some Int.cast_one
    have power : (Tree.binary .pow (.var "x") (.const (Closed.integer 1))).exact
        (fun _ => (-3 : ℝ)) = some (-3) :=
      exact_pow_eq_some.mpr ⟨-3, 1, rfl, lower, Elementary.power_one _⟩
    exact exact_mul_eq_some.mpr ⟨-6, 1, exact_mul_eq_some.mpr ⟨2, -3, two _, power, by norm_num⟩,
      exact_one, by norm_num⟩

end Fluxion.Tree
