/-
Integration is sound: whatever a pipeline finds is an antiderivative.

Every rule is sound when its sub-integrals are (`isAntiderivative_of_finds`),
and an induction on the levels left makes this a statement about whole
runs. That the names stay identifiers and the literals finite
(`over_of_finds`) is needed on the way: integration by parts asks for a
tree it has built, and substitution compares texts.
-/
import Fluxion.Proofs.Evaluation
import Fluxion.Proofs.Exact.Spelling
import Fluxion.Proofs.Integral.Antiderivative
import Fluxion.Proofs.Integral.Matching
import Fluxion.Proofs.Integral.Over

namespace Fluxion

open Text

namespace Strategy

variable {α : Type} [Scalar α] [Numeral α] {v : String} {s : Strategy α} {t F : Tree α}
variable {sub : Tree α → Except (Fault α) (Tree α)}

open Exact (reading)

variable [Exact α ℝ] [Spelled α]

omit [Numeral α] [Spelled α] in
/-- A known constant has one value wherever it is defined. -/
theorem worth_of_constantValue {e : Tree α} {n : α} {x : ℝ} (hn : e.constantValue? = some n)
    (hx : reading n = some x) {env : String → ℝ} (he : e.Defined env) : e.worth env = x :=
  Option.some.inj ((Tree.reading_constantValue hn he).symm.trans hx)

omit [Numeral α] [Spelled α] in
/-- A known constant is finite if it has a value anywhere. -/
theorem reading_of_defined {e : Tree α} {n : α} (hn : e.constantValue? = some n)
    {env : String → ℝ} (he : e.Defined env) : ∃ x : ℝ, reading n = some x :=
  ⟨_, Tree.reading_constantValue hn he⟩

omit [Numeral α] [Spelled α] in
/-- It is enough to look where the integrand is defined. -/
theorem isAntiderivative_of_defined
    (h : ∀ env : String → ℝ, t.Defined env → Tree.IsAntiderivative v F t) :
    Tree.IsAntiderivative v F t :=
  fun env ht => h env ht env ht

/-! ## Powers with a known exponent or base -/

section Known

omit [Numeral α] [Spelled α]

variable {b c e : Tree α} {n : α}

theorem isAntiderivative_var :
    Tree.IsAntiderivative v (powerQuotient v Scalar.two) (.var v : Tree α) := by
  intro env _ hF
  obtain ⟨-, heq⟩ := Tree.worth_derivative_raised Exact.reading_two hF
  refine heq.trans ?_
  rw [show (2 : ℝ) - 1 = 1 by norm_num, Real.rpow_one, Tree.worth_var]

theorem isAntiderivative_inverse (hn : e.constantValue? = some n)
    (h : Scalar.eq n (Scalar.neg Scalar.one) = true) :
    Tree.IsAntiderivative v (.unary .ln (.var v)) (.binary .pow (.var v) e) := by
  refine isAntiderivative_of_defined fun env hdef => ?_
  obtain ⟨x, hx⟩ := reading_of_defined hn (Tree.defined_pow.mp hdef).2.1
  have hx₁ : x = -1 := (Exact.eq_iff hx (Exact.reading_neg Exact.reading_one)).mp h
  exact Tree.isAntiderivative_ln_power fun he => by
    rw [worth_of_constantValue hn hx he, hx₁]

theorem isAntiderivative_raised (hn : e.constantValue? = some n) :
    Tree.IsAntiderivative v (powerQuotient v (Scalar.add n Scalar.one))
      (.binary .pow (.var v) e) := by
  refine isAntiderivative_of_defined fun env hdef => ?_
  obtain ⟨x, hx⟩ := reading_of_defined hn (Tree.defined_pow.mp hdef).2.1
  exact Tree.isAntiderivative_power (Exact.reading_add hx Exact.reading_one)
    (worth_of_constantValue hn hx)

theorem isAntiderivative_overFirstPower (hc : c.mentions v = false)
    (hn : e.constantValue? = some n) (h : Scalar.eq n Scalar.one = true) :
    Tree.IsAntiderivative v (logTerm v c) (.binary .div c (.binary .pow (.var v) e)) := by
  refine isAntiderivative_of_defined fun env hdef => ?_
  have hpow := (Tree.defined_div.mp hdef).2.1
  obtain ⟨x, hx⟩ := reading_of_defined hn (Tree.defined_pow.mp hpow).2.1
  have hx₁ : x = 1 := (Exact.eq_iff hx Exact.reading_one).mp h
  refine Tree.isAntiderivative_logTerm hc fun {env} hd => ?_
  rw [Tree.worth_pow hd, worth_of_constantValue hn hx (Tree.defined_pow.mp hd).2.1, hx₁,
    Real.rpow_one, Tree.worth_var]

theorem isAntiderivative_overPower (hc : c.mentions v = false) (hn : e.constantValue? = some n) :
    Tree.IsAntiderivative v
      (if c.eq Tree.one then powerQuotient v (Scalar.sub Scalar.one n)
        else .binary .mul c (powerQuotient v (Scalar.sub Scalar.one n)))
      (.binary .div c (.binary .pow (.var v) e)) := by
  refine isAntiderivative_of_defined fun env hdef => ?_
  have hpow := (Tree.defined_div.mp hdef).2.1
  obtain ⟨x, hx⟩ := reading_of_defined hn (Tree.defined_pow.mp hpow).2.1
  exact Tree.isAntiderivative_reciprocal hc (Exact.reading_sub Exact.reading_one hx)
    (worth_of_constantValue hn hx) rfl

theorem isAntiderivative_unitBase (hn : b.constantValue? = some n)
    (h : Scalar.eq n Scalar.one = true) :
    Tree.IsAntiderivative v (.var v) (.binary .pow b (.var v)) := by
  refine isAntiderivative_of_defined fun env hdef => ?_
  obtain ⟨x, hx⟩ := reading_of_defined hn (Tree.defined_pow.mp hdef).1
  have hx₁ : x = 1 := (Exact.eq_iff hx Exact.reading_one).mp h
  exact Tree.isAntiderivative_one_pow fun hb => by
    rw [worth_of_constantValue hn hx hb, hx₁]

end Known

/-- **Every rule is sound** if its sub-integrals are. -/
theorem isAntiderivative_of_finds (hs : ∀ m, s = .substitution m → m.sampled = false)
    (hv : IsIdentifier v) (ht : t.Over IsIdentifier)
    (hover : ∀ {u w}, u.Over IsIdentifier → sub u = .ok w → w.Over IsIdentifier)
    (hsub : ∀ {u w}, u.Over IsIdentifier → sub u = .ok w → Tree.IsAntiderivative v w u)
    (h : s.Finds sub v t F) : Tree.IsAntiderivative v F t := by
  cases h with
  | identity => exact isAntiderivative_var
  | lnPower he hn h => exact isAntiderivative_inverse hn h
  | power he hn hfin => exact isAntiderivative_raised hn
  | constant hc => exact Tree.isAntiderivative_constant hc
  | leftFactor hc hw => exact (hsub ht.2 hw).mul_left hc
  | rightFactor hc hw => exact (hsub ht.1 hw).mul_right hc
  | ln hc => exact Tree.isAntiderivative_logTerm hc fun _ => Tree.worth_var v
  | lnFirstPower hc he hn h => exact isAntiderivative_overFirstPower hc hn h
  | reciprocal hc he hn hfin => exact isAntiderivative_overPower hc hn
  | sin => exact Tree.isAntiderivative_sin
  | cos => exact Tree.isAntiderivative_cos
  | tan he => exact Tree.isAntiderivative_tan he
  | cot he => exact Tree.isAntiderivative_cot he
  | exp => exact Tree.isAntiderivative_exp
  | onePower hb ha h => exact isAntiderivative_unitBase ha h
  | exponential hb => exact Tree.isAntiderivative_exponential hb
  | @neg u w hw => exact (hsub (u := u) ht hw).neg
  | divisor hc hw => exact (hsub ht.1 hw).div hc
  | @substitution m t before op u after g c k F hfactors hg hc hk hF =>
    have hall := Tree.over_factors ht
    rw [hfactors] at hall
    have hu : u.Over IsIdentifier := hall (.unary op u) (by simp)
    have hc' : c.Over IsIdentifier := over_cofactor (fun f hf => hall f (by
      rw [List.mem_append] at hf ⊢
      exact hf.imp_right (List.mem_cons_of_mem _))) hc
    refine Tree.isAntiderivative_substitution hfactors hg hc (fun hd hd' => ?_) hF
    exact Matching.exact_of_ratio (hs m rfl) hc' hu hv hk hd.exact_eq hd'.exact_eq
  | @parts u dv w rest s t htt hw hrest hs₀ =>
    obtain ⟨hu, hdv⟩ : u.Over IsIdentifier ∧ dv.Over IsIdentifier := by
      rcases htt with rfl | rfl
      · exact ht
      · exact ⟨ht.2, ht.1⟩
    have hrest' : rest.Over IsIdentifier :=
      Tree.over_regroup (over_parts hu (hover hdv hw)) hrest
    refine Tree.isAntiderivative_parts (hsub hdv hw) hrest (hsub hrest' hs₀) fun hdef => ?_
    rcases htt with rfl | rfl
    · exact ⟨(Tree.defined_mul.mp hdef).2, Tree.worth_mul⟩
    · exact ⟨(Tree.defined_mul.mp hdef).1, by rw [Tree.worth_mul, mul_comm]⟩
  | sum ha hb => exact (hsub ht.1 ha).add (hsub ht.2 hb)
  | difference ha hb => exact (hsub ht.1 ha).sub (hsub ht.2 hb)

end Strategy

/-! ## Whole runs -/

namespace Pipeline

variable {α : Type} [Scalar α] [Numeral α] {p : Pipeline α} {v : String} {t F : Tree α}

variable [Exact α ℝ] [Spelled α]

omit [Numeral α] [Exact α ℝ] [Spelled α] in
theorem sampled_eq_false (hp : p.strategies = Strategy.standard) (m : Matching α)
    (hm : .substitution m ∈ p.strategies) : m.sampled = false := by
  rw [hp] at hm
  have hm : m = .standard := by simpa [Strategy.standard] using hm
  rw [hm]
  rfl

theorem isAntiderivative_of_run (hp : ∀ m, .substitution m ∈ p.strategies → m.sampled = false)
    (hv : IsIdentifier v) {n : Nat} (ht : t.Over IsIdentifier) (h : p.run v n t = .ok F) :
    Tree.IsAntiderivative v F t := by
  induction n generalizing t F with
  | zero => cases h
  | succ n ih =>
    obtain ⟨m, s, hm, hs, hf⟩ := finds_of_run h
    obtain rfl : n = m := Nat.succ.inj hm
    exact Strategy.isAntiderivative_of_finds (fun m h => hp m (h ▸ hs)) hv ht (over_of_run hv) ih hf

/-- **Integration is sound.** What a pipeline that samples nothing finds is
an antiderivative of the integrand: wherever the integrand and the
derivative of the result both have a value, the values agree. -/
theorem derivative_integrate (p : Pipeline α)
    (hp : ∀ m, .substitution m ∈ p.strategies → m.sampled = false) (t : Tree α)
    (ht : t.AllFinite) (hnames : ∀ x ∈ t.names, IsIdentifier x) (v : String) (hv : IsIdentifier v)
    (F : Tree α) (h : p.integrate t v = .ok F) (env : String → ℝ) (x y : ℝ)
    (hx : t.exact env = some x) (hy : (F.derivative v).exact env = some y) : x = y := by
  have hF := isAntiderivative_of_run hp hv (Tree.over_iff.mpr ⟨ht, hnames⟩) h env
    (Tree.defined_of_exact hx) (Tree.defined_of_exact hy)
  rw [Tree.worth_eq hx, Tree.worth_eq hy] at hF
  exact hF.symm

/-- `(6 * x) * cos (x ^ 2)`, which the seven strategies integrate to
`3 * sin (x ^ 2)` by substitution. -/
theorem derivative_integrate_cos :
    ∃ F, (Pipeline.standard : Pipeline Closed).integrate
        (.binary .mul (.binary .mul (.const (.integer 6)) (.var "x"))
          (.unary .cos (.binary .pow (.var "x") (.const (.integer 2))))) "x" = .ok F ∧
      ∃ x y, (Tree.binary .mul (.binary .mul (.const (Closed.integer 6)) (.var "x"))
          (.unary .cos (.binary .pow (.var "x") (.const (.integer 2))))).exact
            (fun _ => (2 : ℝ)) = some x ∧
        (F.derivative "x").exact (fun _ => (2 : ℝ)) = some y ∧ x = y := by
  have power (n : ℤ) : (Tree.binary .pow (.var "x") (.const (Closed.integer n))).Defined
      (fun _ => (2 : ℝ)) :=
    Tree.defined_pow.mpr ⟨Tree.defined_var _, ⟨n, by simp⟩, .inl (by simp)⟩
  have ht : (Tree.binary .mul (.binary .mul (.const (Closed.integer 6)) (.var "x"))
      (.unary .cos (.binary .pow (.var "x") (.const (.integer 2))))).Defined
        (fun _ => (2 : ℝ)) :=
    Tree.defined_mul.mpr ⟨Tree.defined_mul.mpr ⟨⟨6, by simp⟩, Tree.defined_var _⟩,
      Tree.defined_unary.mpr ⟨power 2, trivial⟩⟩
  have hF : ((Tree.binary .mul (.const (Closed.integer 3))
      (.unary .sin (.binary .pow (.var "x") (.const (.integer 2))))).derivative "x").Defined
        (fun _ => (2 : ℝ)) :=
    Tree.defined_add.mpr ⟨Tree.defined_mul.mpr ⟨Tree.defined_zero,
      Tree.defined_unary.mpr ⟨power 2, trivial⟩⟩, Tree.defined_mul.mpr ⟨⟨3, by simp⟩,
      Tree.defined_mul.mpr ⟨Tree.defined_unary.mpr ⟨power 2, trivial⟩,
        Tree.defined_mul.mpr ⟨Tree.defined_mul.mpr ⟨⟨2, by simp⟩, power 1⟩, Tree.defined_one⟩⟩⟩⟩
  refine ⟨_, rfl, _, _, ht.exact_eq, hF.exact_eq, ?_⟩
  refine derivative_integrate .standard (fun m hm => ?_) _ ?_ ?_ "x" (by decide) _ rfl _ _ _
    ht.exact_eq hF.exact_eq
  · have hm : m = .standard := by simpa [standard, Strategy.standard] using hm
    rw [hm]; rfl
  · exact ⟨⟨rfl, trivial⟩, trivial, rfl⟩
  · decide

end Pipeline

end Fluxion
