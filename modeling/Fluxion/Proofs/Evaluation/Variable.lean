/-
The variables that an evaluation depends on. It reads those it comes to, from
left to right, and no others: what is bound to any other name makes no
difference (`value_congr`), and if it reports a name without a binding then
the first of them without one (`reports_value`). In a tree without a
conditional it comes to all of them, so an operand that is undefined does not
hide an unbound name to its right.

Whether the result is finite is asked last, of the whole tree, after all
names have been read.
-/
import Fluxion.Double.Arithmetic
import Fluxion.Tree.Traversal
import Fluxion.Proofs.Fault
import Fluxion.Proofs.Evaluation.Binding

namespace Fluxion

namespace Tree

variable {α : Type} [Scalar α] {env env' : Environment α} {t : Tree α}

/-! ## What is read -/

/-- Two environments that agree on the names that are read give the same
value. By induction on the tree: agreement on the names read by a test
makes both environments take the same branch. -/
theorem value_congr (h : ∀ x ∈ t.reads env, env.get? x = env'.get? x) :
    t.value env = t.value env' := by
  induction t with
  | var x => simp only [value, h x (by simp [reads])]
  | const a => rfl
  | binary op l r hl hr =>
    obtain ⟨h₁, h₂⟩ := List.forall_mem_append.mp h
    simp only [value, hl h₁, hr h₂]
  | unary op u hu => simp only [value, hu h]
  | relate rel l r hl hr =>
    obtain ⟨h₁, h₂⟩ := List.forall_mem_append.mp h
    simp only [value, hl h₁, hr h₂]
  | branch c t f hc ht hf =>
    obtain ⟨h₁, h₂⟩ := List.forall_mem_append.mp h
    rw [value, value, ← hc h₁]
    cases hvalue : c.value env with
    | error e => rfl
    | ok a =>
      simp only [hvalue] at h₂
      simp only [bind, Except.bind]
      split at h₂ <;> rename_i htest
      · rw [if_pos htest, if_pos htest, ht h₂]
      · rw [if_neg htest, if_neg htest, hf h₂]

theorem evaluate_congr (h : ∀ x ∈ t.names, env.get? x = env'.get? x) :
    t.evaluate env = t.evaluate env' := by
  rw [evaluate, evaluate, value_congr fun x hx => h x (mem_names_of_mem_reads hx)]

/-- A tree without a conditional reads all its variables. -/
theorem reads_eq_names (h : ∀ s ∈ t.depthFirst, s.kind ≠ .conditional) :
    t.reads env = t.names := by
  induction t with
  | var x => rfl
  | const a => rfl
  | binary op l r hl hr =>
    obtain ⟨-, h⟩ := List.forall_mem_cons.mp h
    obtain ⟨h₁, h₂⟩ := List.forall_mem_append.mp h
    rw [reads, names, hl h₁, hr h₂]
  | unary op u hu => exact hu (List.forall_mem_cons.mp h).2
  | relate rel l r hl hr =>
    obtain ⟨-, h⟩ := List.forall_mem_cons.mp h
    obtain ⟨h₁, h₂⟩ := List.forall_mem_append.mp h
    rw [reads, names, hl h₁, hr h₂]
  | branch c t f => exact absurd rfl (h _ List.mem_cons_self)

/-! ## What is reported -/

/-- Of the names that are read, the first without a binding is reported. -/
theorem evaluate_unbound {x : String} (hx : x ∈ t.reads env) (hnone : env.get? x = none) :
    ∃ before y after, t.reads env = before ++ y :: after ∧
      (∀ z ∈ before, ∃ a, env.get? z = some a) ∧ env.get? y = none ∧
      t.evaluate env = .error (.unbound y) := by
  have hreports := reports_value env t
  rw [evaluate]
  generalize t.reads env = xs at hreports hx
  generalize t.value env = r at hreports
  cases hreports with
  | number h a =>
    obtain ⟨b, hb⟩ := h x hx
    rw [hnone] at hb
    cases hb
  | unbound h hy after => exact ⟨_, _, after, rfl, h, hy, rfl⟩

/-! ## Bindings to numbers -/

section Measure

variable [Numeral α] {bs : List (Binding α)}

theorem measure_scalars (h : Binding.Scalars (Binding.merged bs) env) :
    t.measure bs = (t.evaluate env).map .number := by
  have hscalars : (env.map fun e => (e.1, Grid.single e.2)).filterMap
      (fun e => e.2.cells.head?.map fun a => (e.1, a)) = env := by
    simp [List.filterMap_map, Function.comp_def, Grid.single]
  rw [measure]
  simp only [h.environment_eq, h.isRow_eq, bind, Except.bind, hscalars]
  cases t.evaluate env <;> rfl

/-- **An evaluation reads exactly the free variables.** For bindings of
variables to numbers, the outcome depends only on those of the variables of
the tree. Apart from the value of the tree being undefined, the one error is
that a variable of the tree is not bound. And if there is no conditional in
the tree and one of its variables is not bound, the leftmost occurrence of
such a variable is reported, whatever else is undefined. -/
theorem measure_reads_names (t : Tree α) (bs : List (Binding α)) (env : Environment α)
    (h : Binding.Scalars (Binding.merged bs) env) :
    (∀ bs' env', Binding.Scalars (Binding.merged bs') env' →
      (∀ x ∈ t.distinctNames, env.get? x = env'.get? x) → t.measure bs = t.measure bs') ∧
    (∀ e, t.measure bs = .error e →
      e = .undefined t ∨ ∃ x ∈ t.distinctNames, env.get? x = none ∧ e = .unbound x) ∧
    ((∀ s ∈ t.depthFirst, s.kind ≠ .conditional) →
      (∃ x ∈ t.distinctNames, env.get? x = none) →
      ∃ before x after, t.names = before ++ x :: after ∧
        (∀ y ∈ before, ∃ a, env.get? y = some a) ∧ env.get? x = none ∧
        t.measure bs = .error (.unbound x)) := by
  simp only [mem_distinctNames]
  refine ⟨fun bs' env' h' hagree => ?_, fun e he => ?_, fun hplain ⟨x, hx, hnone⟩ => ?_⟩
  · rw [measure_scalars h, measure_scalars h', evaluate_congr hagree]
  · rw [measure_scalars h] at he
    exact evaluate_eq_error (map_eq_error.mp he)
  · have hreads : t.reads env = t.names := reads_eq_names hplain
    rw [← hreads] at hx ⊢
    obtain ⟨before, y, after, heq, hbefore, hy, he⟩ := evaluate_unbound hx hnone
    exact ⟨before, y, after, heq, hbefore, hy, by rw [measure_scalars h, map_eq_error.mpr he]⟩

end Measure

def reciprocalPlusDifference : Tree Float :=
  .binary .add (.binary .div (.const 1) (.var "x")) (.binary .sub (.var "y") (.var "z"))

/-- Only `x` is bound, to zero: the quotient is undefined, and yet `y` is
reported. What is bound to `w` makes no difference. -/
theorem measure_reads_names_reciprocal :
    Binding.Scalars (Binding.merged [⟨.text "x", .cell (.real (0 : Float))⟩]) ([] ++ [("x", 0)]) ∧
      (reciprocalPlusDifference.measure [⟨.text "x", .cell (.real 0)⟩] =
        reciprocalPlusDifference.measure
          [⟨.text "w", .cell (.real 7)⟩, ⟨.text "x", .cell (.real 0)⟩]) ∧
      ∃ before after, reciprocalPlusDifference.names = before ++ "y" :: after ∧
        reciprocalPlusDifference.measure [⟨.text "x", .cell (.real 0)⟩] =
          .error (.unbound "y") := by
  have hx : Binding.Scalars (Binding.merged [⟨.text "x", .cell (.real (0 : Float))⟩])
      ([] ++ [("x", 0)]) := .cons rfl rfl rfl .nil
  have hwx : Binding.Scalars (Binding.merged
      [⟨.text "w", .cell (.real 7)⟩, ⟨.text "x", .cell (.real (0 : Float))⟩])
      ([] ++ [("x", 0)] ++ [("w", 7)]) := .cons rfl rfl rfl (.cons rfl rfl rfl .nil)
  obtain ⟨hsame, -, hleft⟩ := measure_reads_names reciprocalPlusDifference _ _ hx
  obtain ⟨before, y, after, heq, -, -, he⟩ := hleft (by decide) ⟨"y", by decide, by decide⟩
  have hy : reciprocalPlusDifference.measure [⟨.text "x", .cell (.real 0)⟩] =
      .error (.unbound "y") := rfl
  obtain rfl : "y" = y := by
    rw [hy] at he
    cases he
    rfl
  exact ⟨hx, hsame _ _ hwx (by decide), before, after, heq, he⟩

end Tree

end Fluxion
