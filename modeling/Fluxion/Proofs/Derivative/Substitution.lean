/-
Other variables are constants to the derivative. To put a tree without `v`
in the place of another variable, before or after differentiating by `v`,
gives trees with the same value (`exact_derivative_substitute`).

As what is put in does not mention `v`, both ways apply the same rule to
every node, and no more is asked of the values than that operations of
equal operands are equal (`Agree`). The two trees differ in two places. At
the variable that is replaced one of them has the literal zero and the
other the derivative of what is put in. And an exponent that becomes a
literal is lowered at once on one way and by a subtraction on the other.
-/
import Fluxion.Proofs.Derivative.Constant
import Fluxion.Proofs.Derivative.Mixed
import Fluxion.Proofs.Tree.Substitution

namespace Fluxion.Tree

variable {α K : Type} [Field K] [LinearOrder K] [Elementary K] [Scalar α] [Exact α K]
variable {env : String → K} {v w : String} {n : Tree α}

/-! ## Lowered exponents -/

omit [Exact α K] [Field K] [LinearOrder K] [Elementary K] in
theorem lowered_of_ne {g : Tree α} (h : ∀ a, g ≠ .const a) : lowered g = .binary .sub g one := by
  cases g with
  | const a => exact absurd rfl (h a)
  | _ => rfl

/-- A literal lowered at once is the difference, where that has a value. -/
theorem agree_lowered (g : Tree α) : Agree env (lowered g) (.binary .sub g one) := by
  by_cases h : ∃ a, g = .const a
  · obtain ⟨a, rfl⟩ := h
    intro x y hx hy
    obtain ⟨b, c, hb, hc, rfl⟩ := exact_sub_eq_some.mp hy
    rw [lowered, exact_const, Exact.reading_sub hb hc] at hx
    exact (Option.some.inj hx).symm
  · rw [lowered_of_ne fun a ha => h ⟨a, ha⟩]
    exact .refl _

theorem agree_lowered_substitute (g : Tree α) :
    Agree env (lowered (substitute (.var w) n g)) (substitute (.var w) n (lowered g)) := by
  by_cases h : ∃ a, g = .const a
  · obtain ⟨a, rfl⟩ := h
    rw [substitute_const, lowered, substitute_const]
    exact .refl _
  · rw [lowered_of_ne fun a ha => h ⟨a, ha⟩, substitute_binary, substitute_one]
    exact agree_lowered _

/-! ## One rule for each node -/

/-- The rule for an operation, applied after the substitution to derivatives
that agree with those in which is substituted. The power rule is chosen by
the same occurrences of `v`. -/
theorem agree_binaryRule (hvw : v ≠ w) (hn : n.mentions v = false) (op : BinaryOp)
    {f g f' g' df dg : Tree α} (hf : Agree env df (substitute (.var w) n f'))
    (hg : Agree env dg (substitute (.var w) n g')) :
    Agree env (binaryRule v op (substitute (.var w) n f) (substitute (.var w) n g) df dg)
      (substitute (.var w) n (binaryRule v op f g f' g')) := by
  cases op with
  | add =>
    simp only [binaryRule, substitute_binary]
    exact .binary .add hf hg
  | sub =>
    simp only [binaryRule, substitute_binary]
    exact .binary .sub hf hg
  | mul =>
    simp only [binaryRule, substitute_binary]
    exact .binary .add (.binary .mul hf (.refl _)) (.binary .mul (.refl _) hg)
  | div =>
    simp only [binaryRule, substitute_binary]
    exact .binary .div
      (.binary .sub (.binary .mul hf (.refl _)) (.binary .mul (.refl _) hg)) (.refl _)
  | pow =>
    simp only [binaryRule, powerRule, mentions_substitute hvw hn]
    split
    · simp only [substitute_binary]
      exact .binary .mul
        (.binary .mul (.refl _) (.binary .pow (.refl _) (agree_lowered_substitute g))) hf
    split
    · simp only [substitute_binary, substitute_unary]
      exact .binary .mul (.refl _) (.binary .mul (.refl _) hg)
    · simp only [substitute_binary, substitute_unary]
      exact .binary .mul (.refl _)
        (.binary .add (.binary .mul hg (.refl _))
          (.binary .div (.binary .mul (.refl _) hf) (.refl _)))

theorem agree_derivative_var (hn : n.mentions v = false) {x : String} (hx : x ≠ v) :
    Agree env ((substitute (.var w) n (.var x)).derivative v) zero := by
  by_cases hxw : x = w
  · rw [hxw, substitute_var_self]
    intro y z hy hz
    rw [← worth_eq hy, ← worth_eq hz, worth_derivative_of_not_mentions hn, worth_zero]
  · rw [substitute_var_of_ne w n hxw, derivative, if_neg (by simpa using hx)]
    exact .refl _

theorem agree_derivative_substitute (hvw : v ≠ w) (hn : n.mentions v = false) (t : Tree α) :
    Agree env ((substitute (.var w) n t).derivative v)
      (substitute (.var w) n (t.derivative v)) := by
  fun_induction derivative v t with
  | case1 a =>
    rw [substitute_const, substitute_zero]
    exact .refl _
  | case2 x hx =>
    rw [beq_iff_eq.mp hx, substitute_var_of_ne w n hvw, substitute_one, derivative,
      if_pos (beq_self_eq_true v)]
    exact .refl _
  | case3 x hx =>
    rw [substitute_zero]
    exact agree_derivative_var hn (by simpa using hx)
  | case4 op f g hf hg =>
    rw [substitute_binary, derivative]
    exact agree_binaryRule hvw hn op hf hg
  | case5 u hu =>
    rw [substitute_unary, substitute_unary, derivative]
    exact .unary .neg hu
  | case6 op u hop hu =>
    rw [substitute_unary, derivative_unary hop, substitute_binary, substitute_outerDerivative]
    exact .binary .mul (.refl _) hu
  | case7 c t f ht hf =>
    rw [substitute_branch, substitute_branch, derivative]
    exact .branch (.refl _) ht hf
  | case8 rel l r =>
    rw [substitute_relate, substitute_zero]
    exact .refl _

/-- **Other variables are constants to the derivative.** -/
theorem exact_derivative_substitute (t n : Tree α) (v w : String) (hvw : v ≠ w)
    (hn : n.mentions v = false) (env : String → K) (x y : K)
    (hx : ((substitute (.var w) n t).derivative v).exact env = some x)
    (hy : (substitute (.var w) n (t.derivative v)).exact env = some y) : x = y :=
  agree_derivative_substitute hvw hn t hx hy

/-- Two for `y` in `x ^ y`, at three: the one derivative has `x` to a
literal power, the other to the difference `2 - 1`. -/
theorem exact_derivative_substitute_power :
    "x" ≠ "y" ∧ (two : Tree Closed).mentions "x" = false ∧ ∃ a b,
      ((substitute (.var "y") two (.binary .pow (.var "x") (.var "y")) : Tree Closed).derivative
        "x").exact (fun _ => (3 : ℝ)) = some a ∧
      (substitute (.var "y") two ((.binary .pow (.var "x") (.var "y") : Tree Closed).derivative
        "x")).exact (fun _ => (3 : ℝ)) = some b ∧ a = b := by
  have base {e : Tree Closed} (he : e.Defined (fun _ => (3 : ℝ))) :
      (Tree.binary .pow (.var "x") e).Defined (fun _ => (3 : ℝ)) :=
    defined_pow.mpr ⟨defined_var _, he, .inl (by simp)⟩
  have unit : (Tree.const Scalar.one : Tree Closed).Defined (fun _ => (3 : ℝ)) := defined_one
  have pair : (Tree.const Scalar.two : Tree Closed).Defined (fun _ => (3 : ℝ)) := defined_two
  have less : (Tree.const (Scalar.sub Scalar.two Scalar.one) : Tree Closed).Defined
      (fun _ => (3 : ℝ)) := ⟨_, Exact.reading_sub Exact.reading_two Exact.reading_one⟩
  have hx : ((substitute (.var "y") two (.binary .pow (.var "x") (.var "y")) :
      Tree Closed).derivative "x").Defined (fun _ => (3 : ℝ)) := by
    simp [substitute_var_of_ne, derivative, binaryRule, powerRule, mentions, lowered, one, two,
      base, unit, pair, less]
  have hy : (substitute (.var "y") two ((.binary .pow (.var "x") (.var "y") :
      Tree Closed).derivative "x")).Defined (fun _ => (3 : ℝ)) := by
    simp [substitute_var_of_ne, derivative, binaryRule, powerRule, mentions, lowered, one, two,
      base, unit, pair]
  exact ⟨by decide, rfl, _, _, hx.exact_eq, hy.exact_eq,
    exact_derivative_substitute (.binary .pow (.var "x") (.var "y")) two "x" "y" (by decide) rfl _
      _ _ hx.exact_eq hy.exact_eq⟩

end Fluxion.Tree
