/-
The sign of a definite integral. `F b - F a` is computed from the bounds
alone, so nothing in between is seen: across a point where the integrand
has no value the result of a positive integrand can be negative
(`definiteIntegral_inverseSquare`). It is not when the antiderivative
accounts for the integrand all the way: when it has a value everywhere
between the bounds, does not jump, and leaves no stretch on which integrand
or derivative are undefined (`definiteIntegral_nonneg`). Neither of the last
two conditions can be left out (`definiteIntegral_jump`,
`definiteIntegral_nowhere`), and the variable must have the name of one
(`definiteIntegral_misnamed`).

That the derivative of the antiderivative then is the integrand off a
countable set is `eventually_hasDerivAt` with the soundness of integration.
-/
import Fluxion.Definite
import Fluxion.Proofs.Derivative.Monotone
import Fluxion.Proofs.Evaluation.Point
import Fluxion.Proofs.Exact.Analytic
import Fluxion.Proofs.Integral.Sound

namespace Fluxion.Tree

open Exact (reading)
open Filter Set Topology Text

variable {α : Type} [Scalar α] [Exact α ℝ] {v : String} {t F : Tree α} {x y : ℝ}

/-- Between `x` and `y` the tree `F` has a value everywhere, as a continuous
function, and no interval is without a point at which `t` and the
derivative of `F` both have values. -/
structure Accounts (v : String) (F t : Tree α) (x y : ℝ) : Prop where
  defined : ∀ s ∈ Icc x y, F.Defined fun _ => s
  continuous : ContinuousOn (fun s => F.worth fun _ => s) (Icc x y)
  dense : Ioo x y ⊆ closure {s | t.Defined (fun _ => s) ∧ (F.derivative v).Defined fun _ => s}

/-! ## In one variable -/

/-- In a tree over `v` alone all variables may be set at once. -/
theorem partially_eq (ht : t.Over (· = v)) (r : String → ℝ) (s : ℝ) :
    t.partially r v s = t.exact fun _ => s := by
  refine exact_congr fun z hz => ?_
  rw [(over_iff.mp ht).2 z hz, Function.update_self]

/-- A settled tree that has values arbitrarily near the point has one at the
point. -/
theorem defined_of_settled (ht : t.Over (· = v)) {r : String → ℝ} {s : ℝ}
    (h : Settled (t.partially r v) s) (hfreq : ∃ᶠ x in 𝓝 s, t.Defined fun _ => x) :
    t.Defined fun _ => s := by
  rcases along_of_settled h with hnone | ⟨-, hsome⟩
  · refine absurd hfreq (not_frequently.mpr (hnone.mono fun x hx => ?_))
    rintro ⟨z, hz⟩
    rw [partially_eq ht, hz] at hx
    cases hx
  · have hself := hsome.self_of_nhds
    rw [partially_eq ht] at hself
    exact ⟨_, hself⟩

/-- Where the integrand is not negative, an antiderivative that accounts for
it does not decrease. -/
theorem worth_le_of_accounts (hF : IsAntiderivative v F t) (ht : t.Over (· = v))
    (hFo : F.Over (· = v)) (hxy : x ≤ y) (h : F.Accounts v t x y)
    (hpos : ∀ s ∈ Icc x y, ∀ z, t.exact (fun _ => s) = some z → 0 ≤ z) :
    (F.worth fun _ => x) ≤ F.worth fun _ => y := by
  refine le_of_deriv_nonneg hxy h.continuous ?_
  filter_upwards [t.eventually_settled 0 v, (F.derivative v).eventually_settled 0 v,
    F.eventually_hasDerivAt 0 v] with s hts hds hderiv hs
  -- a settled tree with values arbitrarily near `s` has one at `s` itself
  have hfreq := mem_closure_iff_frequently.mp (h.dense hs)
  have htdef : t.Defined fun _ => s := defined_of_settled ht hts (hfreq.mono fun _ h => h.1)
  have hddef : (F.derivative v).Defined fun _ => s :=
    defined_of_settled (over_derivative hFo) hds (hfreq.mono fun _ h => h.2)
  have hat (u : Tree α) (hu : u.Over (· = v)) :
      u.exact (Function.update 0 v s) = u.exact fun _ => s := partially_eq hu 0 s
  obtain ⟨w, hw⟩ := h.defined s (Ioo_subset_Icc_self hs)
  refine ⟨(F.derivative v).worth fun _ => s, ?_, ?_⟩
  · rw [hF _ htdef hddef]
    exact hpos s (Ioo_subset_Icc_self hs) _ htdef.exact_eq
  · have halong : F.along 0 v = fun s => F.worth fun _ => s :=
      funext fun s => by rw [along, worth, ← partially_eq hFo 0 s]; rfl
    rw [← halong]
    refine hderiv _ ⟨w, ?_⟩ ?_
    · rw [hat F hFo, hw]
    · rw [hat _ (over_derivative hFo), hddef.exact_eq]

/-! ## Exponentials -/

theorem exact_exp {env : String → ℝ} (h : t.exact env = some x) :
    (Tree.unary .exp t).exact env = some (Real.exp x) :=
  exact_unary_eq_some.mpr ⟨x, h, UnaryOp.exact_eq_some.mpr ⟨trivial, rfl⟩⟩

theorem exact_neg_exp (z : String) (s : ℝ) :
    (Tree.unary .neg (.unary .exp (.var z)) : Tree α).exact (fun _ => s) = some (-Real.exp s) :=
  exact_neg_eq_some.mpr ⟨_, exact_exp (exact_var z), rfl⟩

theorem nonneg_of_exact_exp {env : String → ℝ} (h : (Tree.unary .exp t).exact env = some x) :
    0 ≤ x := by
  obtain ⟨w, -, hw⟩ := exact_unary_eq_some.mp h
  obtain ⟨-, rfl⟩ := UnaryOp.exact_eq_some.mp hw
  exact Real.exp_nonneg w

/-! ## The definite integral -/

variable [Numeral α]

/-- The definite integral is the increase of the antiderivative, where that
has values at the bounds. -/
theorem definiteIntegral_of_antiderivative {a b : α} (ha : reading a = some x)
    (hb : reading b = some y) (hF : t.antiderivative v = .ok F) (hover : F.Over (· = v))
    (hx : F.Defined fun _ => x) (hy : F.Defined fun _ => y) :
    ∃ c, t.definiteIntegral v a b = .ok c ∧
      reading c = some ((F.worth fun _ => y) - F.worth fun _ => x) := by
  obtain ⟨upper, hupper, hup⟩ := evaluateAt_of_defined hb hover hy
  obtain ⟨lower, hlower, hlow⟩ := evaluateAt_of_defined ha hover hx
  have hincrease : F.increase v a b = .ok (Scalar.sub upper lower) :=
    bind_eq_ok.mpr ⟨upper, hupper, bind_eq_ok.mpr ⟨lower, hlower, rfl⟩⟩
  exact ⟨_, bind_eq_ok.mpr ⟨F, hF, hincrease⟩, Exact.reading_sub hup hlow⟩

/-- **Positivity of definite integrals.** Let `t` be a tree in the variable
`v` that is nowhere negative between the bounds. If the antiderivative that
is found accounts for it there, the definite integral fails or is not
negative. -/
theorem definiteIntegral_nonneg [Spelled α] (t : Tree α) (ht : t.AllFinite)
    (v : String) (hv : IsIdentifier v) (hnames : ∀ z ∈ t.names, z = v) (a b : α) (x y : ℝ)
    (ha : reading a = some x) (hb : reading b = some y) (hxy : x ≤ y)
    (hpos : ∀ s ∈ Icc x y, ∀ z, t.exact (fun _ => s) = some z → 0 ≤ z)
    (hregular : ∀ F, t.antiderivative v = .ok F → F.Accounts v t x y) :
    (∃ e, t.definiteIntegral v a b = .error e) ∨
      ∃ c z, t.definiteIntegral v a b = .ok c ∧ reading c = some z ∧ 0 ≤ z := by
  cases h : t.definiteIntegral v a b with
  | error e => exact .inl ⟨e, rfl⟩
  | ok c =>
    obtain ⟨F, hF, h⟩ := bind_eq_ok.mp h
    obtain ⟨upper, hupper, h⟩ := bind_eq_ok.mp h
    obtain ⟨lower, hlower, h⟩ := bind_eq_ok.mp h
    cases h
    have hacc := hregular F hF
    have hover : t.Over (· = v) := over_iff.mpr ⟨ht, hnames⟩
    have hident : t.Over IsIdentifier :=
      over_iff.mpr ⟨ht, fun z hz => (hnames z hz).symm ▸ hv⟩
    -- ratios are never sampled, so that the antiderivative is a true one
    have hmatching : ∀ m, .substitution m ∈ (Pipeline.standard : Pipeline α).strategies →
        m.sampled = false := fun m hm => by
      obtain rfl : m = .standard := by simpa [Pipeline.standard, Strategy.standard] using hm
      rfl
    have hanti : IsAntiderivative v F t := Pipeline.isAntiderivative_of_run hmatching hv hident hF
    have hle := worth_le_of_accounts hanti hover (Pipeline.over_of_run rfl hover hF) hxy hacc hpos
    refine .inr ⟨_, _, rfl, Exact.reading_sub (reading_evaluateAt hb hupper ?_)
      (reading_evaluateAt ha hlower ?_), sub_nonneg.mpr hle⟩
    · exact hacc.defined y (right_mem_Icc.mpr hxy)
    · exact hacc.defined x (left_mem_Icc.mpr hxy)

/-! ## A power of the variable over its exponent -/

theorem exact_powerQuotient {n : ℤ} {s : ℝ} (hn : n ≠ 0) (h : PowerDefined s n) :
    (powerQuotient "x" (Closed.integer n)).exact (fun _ => s) = some (s ^ n / n) := by
  refine exact_div_eq_some.mpr ⟨s ^ n, n, exact_pow_eq_some.mpr ⟨s, n, rfl, rfl, ?_⟩, rfl,
    Int.cast_ne_zero.mpr hn, rfl⟩
  exact power_eq_some.mpr ⟨h, Real.rpow_intCast s n⟩

theorem defined_derivative_powerQuotient {n : ℤ} {s : ℝ} (hn : n ≠ 0) (hs : 0 < s) :
    ((powerQuotient "x" (Closed.integer n)).derivative "x").Defined fun _ => s := by
  have hexponent (m : ℤ) : (Tree.const (Closed.integer m)).Defined fun _ => s := ⟨(m : ℝ), rfl⟩
  have hpow (m : ℤ) : (Tree.binary .pow (.var "x") (.const (Closed.integer m))).Defined
      fun _ => s := defined_pow.mpr ⟨defined_var _, hexponent m, .inl hs⟩
  have hne : (Tree.const (Closed.integer n)).worth (fun _ => s) ≠ 0 := Int.cast_ne_zero.mpr hn
  have hnum : (Tree.binary .sub (.binary .mul (.binary .mul (.binary .mul
      (.const (Closed.integer n)) (.binary .pow (.var "x") (.const (Closed.integer (n - 1))))) one)
      (.const (Closed.integer n))) (.binary .mul (.binary .pow (.var "x")
        (.const (Closed.integer n))) zero)).Defined fun _ => s := by
    simp [hpow, hexponent]
  refine defined_div.mpr ⟨hnum, defined_mul.mpr ⟨hexponent n, hexponent n⟩, ?_⟩
  rw [worth_mul]
  exact mul_ne_zero hne hne

/-- The integral of `x` from zero to one. -/
theorem definiteIntegral_nonneg_var :
    (∃ e, (Tree.var "x" : Tree Closed).definiteIntegral "x" (.integer 0) (.integer 1) = .error e) ∨
      ∃ c z, (Tree.var "x" : Tree Closed).definiteIntegral "x" (.integer 0) (.integer 1) = .ok c ∧
        reading c = some z ∧ 0 ≤ z := by
  have hF : (Tree.var "x" : Tree Closed).antiderivative "x" =
      .ok (powerQuotient "x" (.integer 2)) := rfl
  have hvalue (s : ℝ) (hs : 0 ≤ s) : (powerQuotient "x" (Closed.integer 2)).exact (fun _ => s) =
      some (s ^ (2 : ℤ) / (2 : ℤ)) :=
    exact_powerQuotient two_ne_zero (hs.lt_or_eq.imp_right fun h => .inl ⟨h.symm, by norm_num⟩)
  refine definiteIntegral_nonneg (.var "x") trivial "x" (by decide) (by simp [names])
    (Closed.integer 0) (Closed.integer 1) 0 1 (by simp) (by simp) zero_le_one ?_ ?_
  · intro s hs z hz
    cases hz
    exact hs.1
  · intro F h
    rw [hF] at h
    cases h
    refine ⟨fun s hs => ⟨_, hvalue s hs.1⟩, ?_, fun s hs => subset_closure ⟨defined_var _, ?_⟩⟩
    · have hcont : ContinuousOn (fun s : ℝ => s ^ 2 / ((2 : ℤ) : ℝ)) (Icc 0 1) := by fun_prop
      exact hcont.congr fun s hs => worth_eq (hvalue s hs.1)
    · exact defined_derivative_powerQuotient two_ne_zero hs.1

/-! ## What the hypotheses exclude -/

/-- The definite integral is negative, where the antiderivative has a smaller
value at the upper bound. -/
theorem definiteIntegral_neg {a b : α} (ha : reading a = some x) (hb : reading b = some y)
    (hF : t.antiderivative v = .ok F) (hover : F.Over (· = v)) {p q : ℝ}
    (hx : F.exact (fun _ => x) = some p) (hy : F.exact (fun _ => y) = some q) (hlt : q < p) :
    ∃ c z, t.definiteIntegral v a b = .ok c ∧ reading c = some z ∧ z < 0 := by
  obtain ⟨c, hc, hread⟩ := definiteIntegral_of_antiderivative ha hb hF hover ⟨p, hx⟩ ⟨q, hy⟩
  refine ⟨c, _, hc, hread, ?_⟩
  rw [worth_eq hx, worth_eq hy]
  exact sub_neg.mpr hlt

noncomputable def inverseSquare : Tree Closed :=
  .binary .pow (.var "x") (.const (.integer (-2)))

/-- The integral of `x ^ (-2)` from minus one to one is negative: the
antiderivative has no value at zero. -/
theorem definiteIntegral_inverseSquare :
    (∀ z ∈ inverseSquare.names, z = "x") ∧
      (∀ s ∈ Icc (-1 : ℝ) 1, ∀ z, inverseSquare.exact (fun _ => s) = some z → 0 ≤ z) ∧
      ∃ c z, inverseSquare.definiteIntegral "x" (.integer (-1)) (.integer 1) = .ok c ∧
        reading c = some z ∧ z < (0 : ℝ) := by
  refine ⟨by simp [inverseSquare, names], fun s _ z hz => ?_, ?_⟩
  · obtain ⟨a, b, ha, hb, hp⟩ := exact_pow_eq_some.mp hz
    cases ha
    cases hb
    obtain ⟨-, rfl⟩ := power_eq_some.mp hp
    rw [Real.rpow_intCast]
    exact Even.zpow_nonneg ⟨-1, rfl⟩ s
  · have hF : inverseSquare.antiderivative "x" = .ok (powerQuotient "x" (.integer (-1))) := rfl
    have hlower := exact_powerQuotient (n := -1) (s := ((-1 : ℤ) : ℝ)) (by decide)
      (.inr (.inr ⟨by norm_num, -1, rfl⟩))
    have hupper := exact_powerQuotient (n := -1) (s := ((1 : ℤ) : ℝ)) (by decide)
      (.inl (by norm_num))
    exact definiteIntegral_neg (Closed.reading_integer (-1)) (Closed.reading_integer 1) hF
      ⟨⟨rfl, rfl⟩, rfl⟩ hlower hupper (by norm_num)

/-- `x + 5` below zero and `x` from there on. -/
noncomputable def sawtooth : Tree Closed :=
  .branch (.relate .lt (.var "x") zero) (.binary .add (.var "x") (.const (.integer 5))) (.var "x")

theorem exact_sawtooth (s : ℝ) :
    sawtooth.exact (fun _ => s) = some (if s < 0 then s + 5 else s) := by
  refine exact_branch_eq_some.mpr ⟨if s < 0 then 1 else 0, ?_, ?_⟩
  · exact exact_relate_eq_some.mpr ⟨s, 0, rfl, exact_zero, by simp [Relation.exact]⟩
  · by_cases h : s < 0
    · simpa [h] using exact_add_eq_some.mpr ⟨s, 5, rfl, by simp, rfl⟩
    · simp [h]

/-- The exponential of the sawtooth, times the sawtooth's slope. -/
noncomputable def jump : Tree Closed :=
  .binary .mul (.branch (.relate .lt (.var "x") zero) one one) (.unary .exp sawtooth)

/-- The antiderivative has a value everywhere, but jumps down at zero. -/
theorem definiteIntegral_jump :
    (∀ s ∈ Icc (-1 : ℝ) 1, ∀ z, jump.exact (fun _ => s) = some z → 0 ≤ z) ∧
      ∃ c z, jump.definiteIntegral "x" (.integer (-1)) (.integer 1) = .ok c ∧
        reading c = some z ∧ z < (0 : ℝ) := by
  refine ⟨fun s _ z hz => ?_, ?_⟩
  · obtain ⟨p, q, hp, hq, rfl⟩ := exact_mul_eq_some.mp hz
    obtain ⟨w, -, hone⟩ := exact_branch_eq_some.mp hp
    rw [ite_self, exact_one] at hone
    cases hone
    exact mul_nonneg zero_le_one (nonneg_of_exact_exp hq)
  · have hF : jump.antiderivative "x" = .ok (.unary .exp sawtooth) := rfl
    refine definiteIntegral_neg (Closed.reading_integer (-1)) (Closed.reading_integer 1) hF
      ⟨⟨rfl, rfl⟩, ⟨rfl, rfl⟩, rfl⟩ (exact_exp (exact_sawtooth _)) (exact_exp (exact_sawtooth _)) ?_
    exact Real.exp_lt_exp.mpr (by norm_num)

/-- `-(1 + 0 * (x / 0)) * exp x`. -/
noncomputable def nowhere : Tree Closed :=
  .unary .neg (.binary .mul
    (.binary .add one (.binary .mul zero (.binary .div (.var "x") zero))) (.unary .exp (.var "x")))

/-- The antiderivative is continuous, but the integrand has no value
anywhere. -/
theorem definiteIntegral_nowhere :
    (∀ s ∈ Icc (0 : ℝ) 1, ∀ z, nowhere.exact (fun _ => s) = some z → 0 ≤ z) ∧
      ∃ c z, nowhere.definiteIntegral "x" (.integer 0) (.integer 1) = .ok c ∧
        reading c = some z ∧ z < (0 : ℝ) := by
  refine ⟨fun s _ z hz => ?_, ?_⟩
  · have hdef : nowhere.Defined fun _ => s := ⟨z, hz⟩
    simp [nowhere] at hdef
  · have hF : nowhere.antiderivative "x" = .ok (.unary .neg (.unary .exp (.var "x"))) := rfl
    exact definiteIntegral_neg (Closed.reading_integer 0) (Closed.reading_integer 1) hF rfl
      (exact_neg_exp "x" _) (exact_neg_exp "x" _) (neg_lt_neg (Real.exp_lt_exp.mpr (by norm_num)))

/-- `-(x * exp x)`, where the variable is called `1`. -/
noncomputable def misnamed : Tree Closed :=
  .unary .neg (.binary .mul (.var "1") (.unary .exp (.var "1")))

/-- A variable that is spelled like the number one is taken for it. -/
theorem definiteIntegral_misnamed :
    (∀ s ∈ Icc (-1 : ℝ) 0, ∀ z, misnamed.exact (fun _ => s) = some z → 0 ≤ z) ∧
      ∃ c z, misnamed.definiteIntegral "1" (.integer (-1)) (.integer 0) = .ok c ∧
        reading c = some z ∧ z < (0 : ℝ) := by
  refine ⟨fun s hs z hz => ?_, ?_⟩
  · obtain ⟨w, hw, rfl⟩ := exact_neg_eq_some.mp hz
    obtain ⟨p, q, hp, hq, rfl⟩ := exact_mul_eq_some.mp hw
    cases hp
    exact neg_nonneg.mpr (mul_nonpos_of_nonpos_of_nonneg hs.2 (nonneg_of_exact_exp hq))
  · have hF : misnamed.antiderivative "1" = .ok (.unary .neg (.unary .exp (.var "1"))) := rfl
    exact definiteIntegral_neg (Closed.reading_integer (-1)) (Closed.reading_integer 0) hF rfl
      (exact_neg_exp "1" _) (exact_neg_exp "1" _) (neg_lt_neg (Real.exp_lt_exp.mpr (by norm_num)))

end Fluxion.Tree
