/-
Trees are piecewise analytic. Seen as a function of one variable a tree is,
around all but countably many points, either nowhere defined or analytic,
and its comparisons and conditionals are decided. So the conditions under
which the symbolic derivative is the derivative hold by themselves off a
countable set, wherever tree and derivative are defined
(`eventually_hasDerivAt`).

The points left out are the crossings of the functions whose sign decides
what happens: divisors, arguments at the edge of a domain, sides of a
comparison. An analytic function that is zero at a point is zero around it
or nowhere else near it, so crossings are isolated.
-/
import Mathlib
import Fluxion.Proofs.Derivative.Real

namespace Fluxion

open Filter Topology

/-! ## Crossings -/

/-- An analytic function is zero at the point, but not all around it. -/
def Crossing (f : ℝ → ℝ) (s : ℝ) : Prop :=
  AnalyticAt ℝ f s ∧ f s = 0 ∧ ¬∀ᶠ x in 𝓝 s, f x = 0

/-- Crossings are isolated, and so there are countably many. -/
theorem eventually_not_crossing (f : ℝ → ℝ) : ∀ᶠ s in cocountable, ¬Crossing f s := by
  refine mem_cocountable.mpr ?_
  have hdiscrete : DiscreteTopology {s | Crossing f s} := by
    refine discreteTopology_subtype_iff.mpr fun s hs => inf_principal_eq_bot.mpr ?_
    obtain ⟨hf, -, hne⟩ := hs
    filter_upwards [hf.eventually_eq_zero_or_eventually_ne_zero.resolve_left hne] with x hx hcross
    exact hx hcross.2.1
  have hcount : Countable {s | Crossing f s} :=
    TopologicalSpace.separableSpace_iff_countable.mp inferInstance
  simpa only [Set.compl_ofPred, not_not] using Set.countable_coe_iff.mp hcount

/-- Around any other point the sign is settled. -/
theorem sign_near {f : ℝ → ℝ} {s : ℝ} (hf : AnalyticAt ℝ f s) (hs : ¬Crossing f s) :
    (∀ᶠ x in 𝓝 s, f x = 0) ∨ (∀ᶠ x in 𝓝 s, 0 < f x) ∨ ∀ᶠ x in 𝓝 s, f x < 0 := by
  by_cases hzero : ∀ᶠ x in 𝓝 s, f x = 0
  · exact .inl hzero
  · rcases lt_trichotomy (f s) 0 with h | h | h
    · exact .inr (.inr (hf.continuousAt.eventually_lt_const h))
    · exact absurd ⟨hf, h, hzero⟩ hs
    · exact .inr (.inl (hf.continuousAt.eventually_const_lt h))

/-- Around the point the partial function is nowhere defined, or it has the
values of a function that is analytic there. -/
def Settled (g : ℝ → Option ℝ) (s : ℝ) : Prop :=
  (∀ᶠ x in 𝓝 s, g x = none) ∨ ∃ f, AnalyticAt ℝ f s ∧ ∀ᶠ x in 𝓝 s, g x = some (f x)

theorem Settled.none {g : ℝ → Option ℝ} {s : ℝ} (h : ∀ᶠ x in 𝓝 s, g x = .none) : Settled g s :=
  .inl h

theorem Settled.congr {g g' : ℝ → Option ℝ} {s : ℝ} (h : Settled g s)
    (heq : ∀ᶠ x in 𝓝 s, g' x = g x) : Settled g' s := by
  rcases h with h | ⟨f, hf, h⟩
  · exact .inl (by filter_upwards [h, heq] with x hx hx'; rw [hx', hx])
  · exact .inr ⟨f, hf, by filter_upwards [h, heq] with x hx hx'; rw [hx', hx]⟩

theorem Settled.const (o : Option ℝ) (s : ℝ) : Settled (fun _ => o) s := by
  cases o with
  | none => exact .none (.of_forall fun _ => rfl)
  | some y => exact .inr ⟨fun _ => y, analyticAt_const, .of_forall fun _ => rfl⟩

/-! ## Functions -/

namespace UnaryOp

/-- Positive inside the domain, negative outside, and zero at its edge. -/
noncomputable def guard (op : UnaryOp) (x : ℝ) : ℝ :=
  match op with
  | .neg | .sin | .cos | .exp | .atan => 1
  | .tan | .sec => Real.cos x ^ 2
  | .csc | .cot => Real.sin x ^ 2
  | .ln | .sqrt => x
  | .asin | .acos => 1 - x ^ 2

theorem analyticAt_guard (op : UnaryOp) (x : ℝ) : AnalyticAt ℝ op.guard x := by
  cases op with
  | tan | sec => exact Real.analyticAt_cos.pow 2
  | csc | cot => exact Real.analyticAt_sin.pow 2
  | ln | sqrt => exact analyticAt_id
  | asin | acos => exact analyticAt_const.sub (analyticAt_id.pow 2)
  | _ => exact analyticAt_const

theorem exact_eq_none {op : UnaryOp} {x : ℝ} (h : ¬op.Domain x) : op.exact x = none := by
  cases hx : op.exact x with
  | none => rfl
  | some z => exact absurd (exact_eq_some.mp hx).1 h

theorem not_domain_of_guard_neg {op : UnaryOp} {x : ℝ} (h : op.guard x < 0) : ¬op.Domain x := by
  intro hd
  cases op <;> simp only [guard, Domain] at h hd
  case asin | acos => nlinarith [hd.1, hd.2]
  case tan | sec | csc | cot => exact absurd h (not_lt.mpr (sq_nonneg _))
  all_goals linarith

theorem domain_of_guard_pos {op : UnaryOp} {x : ℝ} (h : 0 < op.guard x) : op.Domain x := by
  cases op <;> simp only [guard, Domain] at h ⊢
  case asin | acos => exact abs_le.mp ((sq_le_one_iff_abs_le_one x).mp (by linarith))
  case tan | sec | csc | cot => exact fun h₀ => by rw [h₀] at h; norm_num at h
  case ln => exact h
  case sqrt => exact h.le

theorem analyticAt_real {op : UnaryOp} {x : ℝ} (h : 0 < op.guard x) : AnalyticAt ℝ op.real x := by
  have hdom := domain_of_guard_pos h
  have ends (h : 0 < 1 - x ^ 2) : x ≠ -1 ∧ x ≠ 1 := by
    constructor <;> rintro rfl <;> norm_num at h
  cases op with
  | neg => exact analyticAt_id.neg
  | sin => exact Real.analyticAt_sin
  | cos => exact Real.analyticAt_cos
  | tan => exact (Real.contDiffAt_tan.mpr hdom).analyticAt
  | sec => exact analyticAt_const.div Real.analyticAt_cos hdom
  | csc => exact analyticAt_const.div Real.analyticAt_sin hdom
  | cot => exact Real.analyticAt_cos.div Real.analyticAt_sin hdom
  | exp => exact analyticAt_rexp
  | ln => exact analyticAt_log hdom
  | sqrt => exact (Real.contDiffAt_sqrt h.ne').analyticAt
  | asin => exact (Real.contDiffAt_arcsin (ends h).1 (ends h).2).analyticAt
  | acos => exact (Real.contDiffAt_arccos (ends h).1 (ends h).2).analyticAt
  | atan => exact Real.contDiff_arctan.contDiffAt.analyticAt

/-- At the edge of its domain a function is not defined, or its argument
does not change. -/
theorem settled_of_guard_eq_zero {op : UnaryOp} {f : ℝ → ℝ} {s : ℝ} (hf : AnalyticAt ℝ f s)
    (h : ∀ᶠ x in 𝓝 s, op.guard (f x) = 0) : Settled (fun x => op.exact (f x)) s := by
  have outside (hdom : ∀ y, op.guard y = 0 → ¬op.Domain y) :
      Settled (fun x => op.exact (f x)) s :=
    .none (h.mono fun x hx => exact_eq_none (hdom _ hx))
  have still (hsame : ∀ᶠ x in 𝓝 s, f x = f s) : Settled (fun x => op.exact (f x)) s :=
    (Settled.const (op.exact (f s)) s).congr (hsame.mono fun x hx => by rw [hx])
  have ends (hsq : ∀ᶠ x in 𝓝 s, 1 - f x ^ 2 = 0) : ∀ᶠ x in 𝓝 s, f x = f s := by
    have hs : 1 - f s ^ 2 = 0 := hsq.self_of_nhds
    have hne : f s + f s ≠ 0 := fun h₀ => by
      rw [show f s = 0 by linarith] at hs
      norm_num at hs
    have hcont : ContinuousAt (fun x => f x + f s) s := hf.continuousAt.add continuousAt_const
    filter_upwards [hsq, hcont.eventually_ne hne] with x hx hsum
    have hprod : (f x - f s) * (f x + f s) = 0 := by linarith [sq (f x), sq (f s)]
    linarith [(mul_eq_zero.mp hprod).resolve_right hsum]
  cases op with
  | tan | sec | csc | cot => exact outside fun y hy hd => hd (pow_eq_zero_iff two_ne_zero |>.mp hy)
  | ln => exact outside fun y (hy : y = 0) (hd : 0 < y) => hd.ne' hy
  | sqrt => exact still (h.mono fun x hx => hx.trans h.self_of_nhds.symm)
  | asin | acos => exact still (ends h)
  | _ => exact absurd h.self_of_nhds one_ne_zero

theorem eventually_settled (op : UnaryOp) (f : ℝ → ℝ) :
    ∀ᶠ s in cocountable, AnalyticAt ℝ f s → Settled (fun x => op.exact (f x)) s := by
  filter_upwards [eventually_not_crossing fun x => op.guard (f x)] with s hs hf
  rcases sign_near ((op.analyticAt_guard (f s)).fun_comp hf) hs with hzero | hpos | hneg
  · exact settled_of_guard_eq_zero hf hzero
  · exact .inr ⟨fun x => op.real (f x), (analyticAt_real hpos.self_of_nhds).fun_comp hf,
      hpos.mono fun x hx => exact_eq_some.mpr ⟨domain_of_guard_pos hx, rfl⟩⟩
  · exact .none (hneg.mono fun x hx => exact_eq_none (not_domain_of_guard_neg hx))

end UnaryOp

/-! ## Powers and quotients -/

theorem power_eq_none {x y : ℝ} (h : ¬PowerDefined x y) : Elementary.power x y = none := by
  cases hp : Elementary.power x y with
  | none => rfl
  | some z => exact absurd (power_eq_some.mp hp).1 h

section Power

variable {f g : ℝ → ℝ} {s : ℝ}

theorem settled_power_of_pos (hf : AnalyticAt ℝ f s) (hg : AnalyticAt ℝ g s)
    (h : ∀ᶠ x in 𝓝 s, 0 < f x) : Settled (fun x => Elementary.power (f x) (g x)) s := by
  refine .inr ⟨fun x => Real.exp (Real.log (f x) * g x), ?_, ?_⟩
  · exact analyticAt_rexp.fun_comp ((hf.log h.self_of_nhds).mul hg)
  · filter_upwards [h] with x hx
    exact power_eq_some.mpr ⟨.inl hx, Real.rpow_def_of_pos hx _⟩

/-- The powers of zero: one, zero or not defined, by the sign of the
exponent. -/
theorem settled_power_of_zero (hg : AnalyticAt ℝ g s) (hs : ¬Crossing g s)
    (h : ∀ᶠ x in 𝓝 s, f x = 0) : Settled (fun x => Elementary.power (f x) (g x)) s := by
  rcases sign_near hg hs with hzero | hpos | hneg
  · refine (Settled.const (Elementary.power 0 0) s).congr ?_
    filter_upwards [h, hzero] with x hx hgx
    rw [hx, hgx]
  · refine (Settled.const (some 0) s).congr ?_
    filter_upwards [h, hpos] with x hx hgx
    rw [hx]
    exact power_eq_some.mpr ⟨.inr (.inl ⟨rfl, hgx.le⟩), Real.zero_rpow hgx.ne'⟩
  · refine .none ?_
    filter_upwards [h, hneg] with x hx hgx
    rw [hx]
    refine power_eq_none ?_
    rintro (h₀ | ⟨-, h₀⟩ | ⟨h₀, -⟩)
    · exact lt_irrefl _ h₀
    · exact absurd h₀ (not_le.mpr hgx)
    · exact lt_irrefl _ h₀

/-- The powers of a negative number: the exponent is an integer and does
not change, or it is no integer. -/
theorem settled_power_of_neg (hf : AnalyticAt ℝ f s) (hg : AnalyticAt ℝ g s)
    (hs : ¬Crossing (fun x => Real.sin (g x * Real.pi)) s) (h : ∀ᶠ x in 𝓝 s, f x < 0) :
    Settled (fun x => Elementary.power (f x) (g x)) s := by
  -- the exponent is an integer where this function, analytic as well, is zero
  have integer (x : ℝ) : Real.sin (g x * Real.pi) = 0 ↔ ∃ n : ℤ, (n : ℝ) = g x := by
    rw [Real.sin_eq_zero_iff]
    simp [Real.pi_ne_zero]
  have hsin : AnalyticAt ℝ (fun x => Real.sin (g x * Real.pi)) s :=
    Real.analyticAt_sin.fun_comp (hg.mul analyticAt_const)
  have nowhere (hne : ∀ᶠ x in 𝓝 s, Real.sin (g x * Real.pi) ≠ 0) :
      Settled (fun x => Elementary.power (f x) (g x)) s := by
    refine .none ?_
    filter_upwards [h, hne] with x hx hgx
    refine power_eq_none ?_
    rintro (h₀ | ⟨h₀, -⟩ | ⟨-, h₀⟩)
    · linarith
    · linarith
    · exact hgx ((integer x).mpr h₀)
  rcases sign_near hsin hs with hzero | hpos | hneg
  · obtain ⟨n, hn⟩ := (integer s).mp hzero.self_of_nhds
    have hsame : ∀ᶠ x in 𝓝 s, g x = n := by
      have hnear : ∀ᶠ x in 𝓝 s, dist (g x) (g s) < 1 :=
        Metric.tendsto_nhds.mp hg.continuousAt 1 one_pos
      filter_upwards [hzero, hnear] with x hx hdist
      obtain ⟨m, hm⟩ := (integer x).mp hx
      rw [← hm, ← hn, Real.dist_eq, ← Int.cast_sub, ← Int.cast_abs] at hdist
      have hmn : |m - n| < 1 := by exact_mod_cast hdist
      rw [← hm, Int.cast_inj, ← sub_eq_zero, ← abs_eq_zero]
      have hnonneg : 0 ≤ |m - n| := abs_nonneg _
      omega
    refine .inr ⟨fun x => f x ^ n, hf.zpow h.self_of_nhds.ne, ?_⟩
    filter_upwards [h, hsame] with x hx hgx
    rw [hgx]
    exact power_eq_some.mpr ⟨.inr (.inr ⟨hx, n, rfl⟩), Real.rpow_intCast _ _⟩
  · exact nowhere (hpos.mono fun x hx => hx.ne')
  · exact nowhere (hneg.mono fun x hx => hx.ne)

end Power

theorem BinaryOp.eventually_settled (op : BinaryOp) (f g : ℝ → ℝ) :
    ∀ᶠ s in cocountable, AnalyticAt ℝ f s → AnalyticAt ℝ g s →
      Settled (fun x => op.exact (f x) (g x)) s := by
  cases op with
  | add => exact .of_forall fun s hf hg => .inr ⟨_, hf.add hg, .of_forall fun _ => rfl⟩
  | sub => exact .of_forall fun s hf hg => .inr ⟨_, hf.sub hg, .of_forall fun _ => rfl⟩
  | mul => exact .of_forall fun s hf hg => .inr ⟨_, hf.mul hg, .of_forall fun _ => rfl⟩
  | div =>
    filter_upwards [eventually_not_crossing g] with s hs hf hg
    have divided (hne : ∀ᶠ x in 𝓝 s, g x ≠ 0) :
        Settled (fun x => BinaryOp.div.exact (f x) (g x)) s :=
      .inr ⟨_, hf.div hg hne.self_of_nhds,
        hne.mono fun x hx => BinaryOp.exact_div_eq_some.mpr ⟨hx, rfl⟩⟩
    rcases sign_near hg hs with hzero | hpos | hneg
    · exact .none (hzero.mono fun x hx => if_pos hx)
    · exact divided (hpos.mono fun x hx => hx.ne')
    · exact divided (hneg.mono fun x hx => hx.ne)
  | pow =>
    filter_upwards [eventually_not_crossing f, eventually_not_crossing g,
      eventually_not_crossing fun x => Real.sin (g x * Real.pi)] with s hfs hgs hsin hf hg
    rcases sign_near hf hfs with hzero | hpos | hneg
    · exact settled_power_of_zero hg hgs hzero
    · exact settled_power_of_pos hf hg hpos
    · exact settled_power_of_neg hf hg hsin hneg

theorem Relation.eventually_exact_eq (rel : Relation) (f g : ℝ → ℝ) :
    ∀ᶠ s in cocountable, AnalyticAt ℝ f s → AnalyticAt ℝ g s →
      ∀ᶠ x in 𝓝 s, rel.exact (f x) (g x) = rel.exact (f s) (g s) := by
  filter_upwards [eventually_not_crossing fun x => f x - g x] with s hs hf hg
  rcases sign_near (hf.fun_sub hg) hs with h | h | h
  all_goals
    have hself := h.self_of_nhds
    filter_upwards [h] with x hx
    cases rel <;> simp only [Relation.exact, decide_eq_decide] <;> constructor <;> intro <;> grind

/-! ## Trees -/

namespace Tree

variable {α : Type} [Scalar α] [Exact α ℝ] {r : String → ℝ} {v : String}

/-- The tree as a partial function of `v`. -/
noncomputable def partially (r : String → ℝ) (v : String) (t : Tree α) (x : ℝ) : Option ℝ :=
  t.exact (Function.update r v x)

/-- Where a tree is settled, it is nowhere defined around the point, or
`along` is its value and analytic. -/
theorem along_of_settled {t : Tree α} {s : ℝ} (h : Settled (t.partially r v) s) :
    (∀ᶠ x in 𝓝 s, t.partially r v x = none) ∨
      AnalyticAt ℝ (t.along r v) s ∧ ∀ᶠ x in 𝓝 s, t.partially r v x = some (t.along r v x) := by
  refine h.imp_right fun ⟨f, hf, heq⟩ => ?_
  have halong : ∀ᶠ x in 𝓝 s, f x = t.along r v x := heq.mono fun x hx => (along_eq hx).symm
  refine ⟨hf.congr halong, ?_⟩
  filter_upwards [heq, halong] with x hx hx'
  rw [hx, hx']

theorem partially_unary {op : UnaryOp} {u : Tree α} (x : ℝ) :
    (Tree.unary op u).partially r v x = (u.partially r v x).bind op.exact := rfl

theorem partially_relate {rel : Relation} {l u : Tree α} (x : ℝ) :
    (Tree.relate rel l u).partially r v x =
      (l.partially r v x).bind fun a => (u.partially r v x).bind fun b =>
        some (if rel.exact a b then 1 else 0) := rfl

theorem partially_branch {c t f : Tree α} (x : ℝ) :
    (Tree.branch c t f).partially r v x =
      (c.partially r v x).bind fun a => if a = 0 then f.partially r v x else t.partially r v x :=
  rfl

/-- An operation on two settled trees is settled, if it is on their values. -/
theorem settled_bind {op : ℝ → ℝ → Option ℝ} {l u : Tree α} {s : ℝ}
    (hl : Settled (l.partially r v) s) (hu : Settled (u.partially r v) s)
    (hop : AnalyticAt ℝ (l.along r v) s → AnalyticAt ℝ (u.along r v) s →
      Settled (fun x => op (l.along r v x) (u.along r v x)) s) :
    Settled (fun x => (l.partially r v x).bind fun a => (u.partially r v x).bind (op a)) s := by
  rcases along_of_settled hl with hl | ⟨hla, hl⟩
  · exact .none (hl.mono fun x hx => by rw [hx]; rfl)
  rcases along_of_settled hu with hu | ⟨hua, hu⟩
  · refine .none ?_
    filter_upwards [hl, hu] with x hlx hux
    rw [hlx, hux]
    rfl
  · refine (hop hla hua).congr ?_
    filter_upwards [hl, hu] with x hlx hux
    rw [hlx, hux]
    rfl

/-- **Trees are piecewise analytic.** By induction on the tree: the points
to leave out are those of the operands and the crossings of the node. -/
theorem eventually_settled (t : Tree α) (r : String → ℝ) (v : String) :
    ∀ᶠ s in cocountable, Settled (t.partially r v) s := by
  induction t with
  | var y =>
    refine .of_forall fun s => .inr ⟨fun x => Function.update r v x y, ?_, .of_forall fun x => rfl⟩
    by_cases h : y = v
    · subst h
      simp only [Function.update_self]
      exact analyticAt_id
    · simpa [Function.update_of_ne h] using analyticAt_const
  | const a => exact .of_forall fun s => .const _ s
  | binary op l u hl hu =>
    filter_upwards [hl, hu, op.eventually_settled (l.along r v) (u.along r v)] with s hl hu hop
    exact settled_bind hl hu hop
  | unary op u hu =>
    filter_upwards [hu, op.eventually_settled (u.along r v)] with s hu hop
    rcases along_of_settled hu with hu | ⟨hua, hu⟩
    · exact .none (hu.mono fun x hx => by rw [partially_unary, hx]; rfl)
    · exact (hop hua).congr (hu.mono fun x hx => by rw [partially_unary, hx]; rfl)
  | relate rel l u hl hu =>
    filter_upwards [hl, hu, rel.eventually_exact_eq (l.along r v) (u.along r v)] with s hl hu hrel
    refine settled_bind hl hu fun hla hua => (Settled.const
      (some (if rel.exact (l.along r v s) (u.along r v s) then 1 else 0)) s).congr ?_
    filter_upwards [hrel hla hua] with x hx
    rw [hx]
    rfl
  | branch c t f hc ht hf =>
    filter_upwards [hc, ht, hf, eventually_not_crossing (c.along r v)] with s hc ht hf hcross
    rcases along_of_settled hc with hc | ⟨hca, hc⟩
    · exact .none (hc.mono fun x hx => by rw [partially_branch, hx]; rfl)
    have taken (hne : ∀ᶠ x in 𝓝 s, c.along r v x ≠ 0) :
        Settled ((Tree.branch c t f).partially r v) s := by
      refine ht.congr ?_
      filter_upwards [hc, hne] with x hcx hx
      rw [partially_branch, hcx]
      exact if_neg hx
    rcases sign_near hca hcross with hzero | hpos | hneg
    · refine hf.congr ?_
      filter_upwards [hc, hzero] with x hcx hx
      rw [partially_branch, hcx]
      exact if_pos hx
    · exact taken (hpos.mono fun x hx => hx.ne')
    · exact taken (hneg.mono fun x hx => hx.ne)

/-- Whether a settled tree is zero does not change around the point. -/
theorem eventually_zero_iff {t : Tree α} {s : ℝ} (h : Settled (t.partially r v) s)
    (hs : ¬Crossing (t.along r v) s) :
    ∀ᶠ x in 𝓝 s, (t.partially r v x = some 0 ↔ t.partially r v s = some 0) := by
  rcases along_of_settled h with h | ⟨hf, h⟩
  · have hself := h.self_of_nhds
    filter_upwards [h] with x hx
    rw [hx, hself]
  · have hself := h.self_of_nhds
    have away (hne : ∀ᶠ x in 𝓝 s, t.along r v x ≠ 0) :
        ∀ᶠ x in 𝓝 s, (t.partially r v x = some 0 ↔ t.partially r v s = some 0) := by
      filter_upwards [h, hne] with x hx hx₀
      rw [hx, hself]
      simp [hx₀, hne.self_of_nhds]
    rcases sign_near hf hs with hzero | hpos | hneg
    · filter_upwards [h, hzero] with x hx hx₀
      rw [hx, hself, hx₀, hzero.self_of_nhds]
    · exact away (hpos.mono fun x hx => hx.ne')
    · exact away (hneg.mono fun x hx => hx.ne)

/-- A settled comparison keeps its value around the point. -/
theorem eventually_relate_eq {rel : Relation} {l u : Tree α} {s : ℝ}
    (hl : Settled (l.partially r v) s) (hu : Settled (u.partially r v) s)
    (hrel : AnalyticAt ℝ (l.along r v) s → AnalyticAt ℝ (u.along r v) s →
      ∀ᶠ x in 𝓝 s, rel.exact (l.along r v x) (u.along r v x) =
        rel.exact (l.along r v s) (u.along r v s)) :
    ∀ᶠ x in 𝓝 s, (Tree.relate rel l u).partially r v x =
      (Tree.relate rel l u).partially r v s := by
  rcases along_of_settled hl with hl | ⟨hla, hl⟩
  · filter_upwards [hl] with x hx
    rw [partially_relate, partially_relate, hx, hl.self_of_nhds]
    rfl
  rcases along_of_settled hu with hu | ⟨hua, hu⟩
  · filter_upwards [hl, hu] with x hlx hux
    rw [partially_relate, partially_relate, hlx, hux, hl.self_of_nhds, hu.self_of_nhds]
    rfl
  · filter_upwards [hl, hu, hrel hla hua] with x hlx hux hx
    rw [partially_relate, partially_relate, hlx, hux, hl.self_of_nhds, hu.self_of_nhds]
    simp only [Option.bind_some, hx]

/-- Comparisons and conditionals are decided off a countable set. -/
theorem eventually_sameDecisions (t : Tree α) (r : String → ℝ) (v : String) :
    ∀ᶠ s in cocountable,
      ∀ᶠ x in 𝓝 s, t.SameDecisions (Function.update r v s) (Function.update r v x) := by
  induction t with
  | var y => exact .of_forall fun s => .of_forall fun x => trivial
  | const a => exact .of_forall fun s => .of_forall fun x => trivial
  | binary op l u hl hu =>
    filter_upwards [hl, hu] with s hl hu
    exact hl.and hu
  | unary op u hu => exact hu
  | relate rel l u hl hu =>
    filter_upwards [hl, hu, l.eventually_settled r v, u.eventually_settled r v,
      rel.eventually_exact_eq (l.along r v) (u.along r v)] with s hl hu hls hus hrel
    filter_upwards [hl, hu, eventually_relate_eq hls hus hrel] with x hlx hux hx
    exact ⟨hlx, hux, hx⟩
  | branch c t f hc ht hf =>
    filter_upwards [hc, ht, hf, c.eventually_settled r v,
      eventually_not_crossing (c.along r v)] with s hc ht hf hcs hcross
    filter_upwards [hc, ht, hf, eventually_zero_iff hcs hcross] with x hcx htx hfx hx
    exact ⟨hcx, hx, fun _ => hfx, fun _ => htx⟩

/-- **The derivative almost everywhere.** Off a countable set, wherever a
tree and its symbolic derivative have values, the latter is the derivative. -/
theorem eventually_hasDerivAt (t : Tree α) (r : String → ℝ) (v : String) :
    ∀ᶠ s in cocountable, ∀ d, t.Defined (Function.update r v s) →
      (t.derivative v).exact (Function.update r v s) = some d → HasDerivAt (t.along r v) d s := by
  filter_upwards [t.eventually_settled r v, t.eventually_sameDecisions r v] with s hs hdec d hdef hd
  have hnear : ∀ᶠ x in 𝓝 s, (t.exact (Function.update r v x)).isSome = true := by
    rcases along_of_settled hs with hnone | ⟨-, hsome⟩
    · obtain ⟨y, hy⟩ := hdef
      have hself : t.exact (Function.update r v s) = none := hnone.self_of_nhds
      rw [hy] at hself
      cases hself
    · exact hsome.mono fun x hx => Option.isSome_iff_exists.mpr ⟨_, hx⟩
  have halong : t.along (Function.update r v s) v = t.along r v :=
    funext fun x => by simp only [along, Function.update_idem]
  have h := @hasDerivAt_along α _ _ (Function.update r v s) v t d
  simp only [DefinedNear, Function.update_self, Function.update_idem, halong] at h
  exact h hnear hdec hd

end Tree

end Fluxion
