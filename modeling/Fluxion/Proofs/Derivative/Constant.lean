/-
The derivative of a tree without the variable is zero wherever it is
defined. It need not be the literal zero: it is a tree of products,
quotients and conditionals in which every summand has a factor that
vanishes, and all that is asked of the rules is that they keep to such
trees (`Absorbing`).
-/
import Fluxion.Proofs.Exact.Worth
import Fluxion.Proofs.Tree.Over

namespace Fluxion.Tree

/-! ## Differentiating what does not depend on the variable -/

section Rules

variable {α : Type} [Scalar α] {v : String}

/-- The property passes to sums and conditionals, and a product or quotient
has it as soon as a factor or the dividend has it. -/
structure Absorbing (P : Tree α → Prop) : Prop where
  zero : P zero
  add {f g : Tree α} (hf : P f) (hg : P g) : P (.binary .add f g)
  sub {f g : Tree α} (hf : P f) (hg : P g) : P (.binary .sub f g)
  mul_left {f : Tree α} (hf : P f) (g : Tree α) : P (.binary .mul f g)
  mul_right (f : Tree α) {g : Tree α} (hg : P g) : P (.binary .mul f g)
  div {f : Tree α} (hf : P f) (g : Tree α) : P (.binary .div f g)
  neg {u : Tree α} (hu : P u) : P (.unary .neg u)
  branch (c : Tree α) {t f : Tree α} (ht : P t) (hf : P f) : P (.branch c t f)

namespace Absorbing

variable {P : Tree α → Prop}

/-- An exponent without the variable leaves the power rule alone, which has
the derivative of the base for a factor. -/
theorem binaryRule (hP : Absorbing P) {op : BinaryOp} {f g f' g' : Tree α}
    (hg : g.mentions v = false) (hf' : P f') (hg' : P g') : P (binaryRule v op f g f' g') := by
  cases op with
  | add => exact hP.add hf' hg'
  | sub => exact hP.sub hf' hg'
  | mul => exact hP.add (hP.mul_left hf' g) (hP.mul_right f hg')
  | div => exact hP.div (hP.sub (hP.mul_left hf' g) (hP.mul_right f hg')) (.binary .mul g g)
  | pow =>
    rw [Tree.binaryRule, powerRule, if_pos (by simp [hg])]
    exact hP.mul_right _ hf'

theorem derivative (hP : Absorbing P) {t : Tree α} (h : t.mentions v = false) :
    P (t.derivative v) := by
  fun_induction Tree.derivative v t with
  | case1 a => exact hP.zero
  | case2 x hx => rw [mentions, hx] at h; cases h
  | case3 x hx => exact hP.zero
  | case4 op f g hf hg =>
    rw [mentions, Bool.or_eq_false_iff] at h
    exact hP.binaryRule h.2 (hf h.1) (hg h.2)
  | case5 u hu => exact hP.neg (hu h)
  | case6 op u hop hu => exact hP.mul_right _ (hu h)
  | case7 c t f ht hf =>
    rw [mentions, Bool.or_eq_false_iff, Bool.or_eq_false_iff] at h
    exact hP.branch c (ht h.1.2) (hf h.2)
  | case8 rel l r => exact hP.zero

end Absorbing

end Rules

/-! ## Trees without another value than zero -/

section Null

variable {α K : Type} [Field K] [LinearOrder K] [Elementary K]

/-- Zero where it is defined, its literals read by `read`. -/
def Null (read : α → Option K) (env : String → K) (t : Tree α) : Prop :=
  ∀ ⦃z⦄, t.valueBy read env = some z → z = 0

/-- Kernels and the other literals are not asked for: they may round. -/
theorem absorbing_null [Scalar α] {read : α → Option K} (h : read Scalar.zero = some 0)
    (env : String → K) : Absorbing (Null read env) where
  zero := fun z hz => Option.some.inj (hz.symm.trans h)
  add := by
    intro f g hf hg z hz
    obtain ⟨x, y, hx, hy, hxy⟩ := valueBy_binary_eq_some.mp hz
    simpa [BinaryOp.exact, hf hx, hg hy] using hxy.symm
  sub := by
    intro f g hf hg z hz
    obtain ⟨x, y, hx, hy, hxy⟩ := valueBy_binary_eq_some.mp hz
    simpa [BinaryOp.exact, hf hx, hg hy] using hxy.symm
  mul_left := by
    intro f hf g z hz
    obtain ⟨x, y, hx, -, hxy⟩ := valueBy_binary_eq_some.mp hz
    simpa [BinaryOp.exact, hf hx] using hxy.symm
  mul_right := by
    intro f g hg z hz
    obtain ⟨x, y, -, hy, hxy⟩ := valueBy_binary_eq_some.mp hz
    simpa [BinaryOp.exact, hg hy] using hxy.symm
  div := by
    intro f hf g z hz
    obtain ⟨x, y, hx, -, hxy⟩ := valueBy_binary_eq_some.mp hz
    obtain ⟨-, hxy⟩ := BinaryOp.exact_div_eq_some.mp hxy
    rw [← hxy, hf hx, zero_div]
  neg := by
    intro u hu z hz
    obtain ⟨x, hx, hxz⟩ := valueBy_unary_eq_some.mp hz
    simpa [UnaryOp.exact, hu hx] using hxz.symm
  branch := by
    intro c t f ht hf z hz
    obtain ⟨x, -, hz⟩ := valueBy_branch_eq_some.mp hz
    split at hz
    · exact hf hz
    · exact ht hz

end Null

variable {α K : Type} [Field K] [LinearOrder K] [Elementary K] [Scalar α] [Exact α K]
variable {env : String → K} {v : String}

theorem worth_eq_zero_iff {t : Tree α} : t.worth env = 0 ↔ t.Null Exact.reading env := by
  constructor
  · intro h z hz
    rw [← h, worth_eq (t := t) hz]
  · intro h
    by_cases ht : t.Defined env
    · exact h ht.exact_eq
    · exact worth_of_not_defined ht

theorem absorbing_worth (env : String → K) : Absorbing fun t : Tree α => t.worth env = 0 := by
  simpa only [worth_eq_zero_iff] using absorbing_null Exact.reading_zero env

theorem worth_derivative_of_not_mentions {t : Tree α} (h : t.mentions v = false) :
    (t.derivative v).worth env = 0 :=
  (absorbing_worth env).derivative h

end Fluxion.Tree
