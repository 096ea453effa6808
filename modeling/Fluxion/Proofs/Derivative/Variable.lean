/-
The variables of a derivative. Differentiation puts a tree together from
parts of what it differentiates and from literals, so it brings in no
variable (`mentions_derivative`). A variable that is not there to begin with
is not there to differentiate by: then the derivative is zero wherever it is
defined, although it may be as large as the tree
(`distinctNames_derivative`).
-/
import Fluxion.Proofs.Derivative.Constant
import Fluxion.Proofs.Double.Reading
import Fluxion.Proofs.Exact.Real

namespace Fluxion.Tree

variable {α : Type} [Scalar α] {v w x : String} {t : Tree α}

theorem mentions_lowered (g : Tree α) : (lowered g).mentions v = g.mentions v := by
  unfold lowered
  split
  · rfl
  · simp [mentions, one]

theorem mentions_outerDerivative {op : UnaryOp} {u : Tree α} (h : u.mentions v = false) :
    (outerDerivative op u).mentions v = false := by
  cases op <;> simp [outerDerivative, squared, mentions, one, two, h]

theorem mentions_binaryRule {op : BinaryOp} {f g f' g' : Tree α} (hf : f.mentions v = false)
    (hg : g.mentions v = false) (hf' : f'.mentions v = false) (hg' : g'.mentions v = false) :
    (binaryRule w op f g f' g').mentions v = false := by
  cases op with
  | pow =>
    simp only [binaryRule, powerRule]
    split
    · simp [mentions, mentions_lowered, hf, hg, hf']
    split
    · simp [mentions, hf, hg, hg']
    · simp [mentions, hf, hg, hf', hg']
  | _ => simp [binaryRule, mentions, hf, hg, hf', hg']

theorem mentions_derivative (h : t.mentions v = false) : (t.derivative w).mentions v = false := by
  fun_induction derivative w t with
  | case1 a => rfl
  | case2 x hx => rfl
  | case3 x hx => rfl
  | case4 op f g hf hg =>
    rw [mentions, Bool.or_eq_false_iff] at h
    exact mentions_binaryRule h.1 h.2 (hf h.1) (hg h.2)
  | case5 u hu => exact hu h
  | case6 op u hop hu =>
    rw [mentions, Bool.or_eq_false_iff]
    exact ⟨mentions_outerDerivative h, hu h⟩
  | case7 c t f ht hf =>
    simp only [mentions, Bool.or_eq_false_iff] at h ⊢
    exact ⟨⟨h.1.1, ht h.1.2⟩, hf h.2⟩
  | case8 rel l r => rfl

theorem names_derivative (hx : x ∈ (t.derivative v).names) : x ∈ t.names := by
  by_contra h
  have hfree : (t.derivative v).mentions x = false :=
    mentions_derivative ((mentions_eq_false_iff x t).mpr h)
  exact (mentions_eq_false_iff x _).mp hfree hx

variable {K : Type} [Field K] [LinearOrder K] [Elementary K]

/-- **Derivatives invent no variables and vanish on constants.** A variable
of the derivative is one of the tree. If the variable of differentiation is
none of the tree, the derivative has no value but zero at any assignment.
Nothing is asked of the kernels, and of the reading of literals only that
zero is zero, so this is true of exact numbers and of doubles, which round
the exponents that are lowered. -/
theorem distinctNames_derivative (t : Tree α) (v : String) :
    (∀ x ∈ (t.derivative v).distinctNames, x ∈ t.distinctNames) ∧
      (v ∉ t.distinctNames → ∀ read : α → Option K, read Scalar.zero = some 0 →
        ∀ env z, (t.derivative v).valueBy read env = some z → z = 0) := by
  simp only [mem_distinctNames]
  refine ⟨fun x hx => names_derivative hx, fun hv read hzero env z hz => ?_⟩
  have hfree : t.mentions v = false := (mentions_eq_false_iff v t).mpr hv
  exact (absorbing_null hzero env).derivative hfree hz

/-- `y ^ y / y` where `y` is positive, `ln y` elsewhere. -/
def positivePower : Tree Float :=
  .branch (.relate .gt (.var "y") zero)
    (.binary .div (.binary .pow (.var "y") (.var "y")) (.var "y")) (.unary .ln (.var "y"))

/-- By `x` it has the derivative `((y * y ^ (y - 1) * 0) * y - y ^ y * 0) / (y * y)`
where `y` is positive. -/
theorem distinctNames_derivative_positivePower :
    "x" ∉ positivePower.distinctNames ∧
      Double.reading (Scalar.zero : Float) = some (0 : ℝ) ∧ ∃ z : ℝ,
        (positivePower.derivative "x").valueBy Double.reading (fun _ => 2) = some z ∧ z = 0 := by
  have hfree : "x" ∉ positivePower.distinctNames := by decide
  have hzero : Double.reading (Scalar.zero : Float) = some (0 : ℝ) := by
    rw [Double.reading_of_parts (n := false) (m := 0) (q := -1074) rfl]
    simp
  have hone : Double.reading (Scalar.one : Float) = some (1 : ℝ) := Double.isReading.one
  have hlowered : Elementary.power (2 : ℝ) (2 - 1) = some 2 := by
    rw [show (2 : ℝ) - 1 = 1 by norm_num, Elementary.power_one]
  obtain ⟨z, hz⟩ : ∃ z : ℝ,
      (positivePower.derivative "x").valueBy Double.reading (fun _ => 2) = some z := by
    simp [positivePower, derivative, binaryRule, powerRule, mentions, lowered, zero, one, valueBy,
      hzero, hone, hlowered, Relation.exact, BinaryOp.exact, power_two]
  exact ⟨hfree, hzero, z, hz, (distinctNames_derivative positivePower "x").2 hfree _ hzero _ z hz⟩

end Fluxion.Tree
