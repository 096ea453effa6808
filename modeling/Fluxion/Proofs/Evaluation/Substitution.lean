/-
The substitution lemma: to put a tree in the place of a variable, or to bind
the variable to the value of the tree, is the same to an evaluation.

The kernels meet the same numbers on both ways, so the values agree as they
come, finite or not (`value_substitute`): with the same name where a variable
is not bound, and with the same branch taken at every conditional. What is
put in is not looked at again, so it may contain the variable itself.
-/
import Fluxion.Double.Arithmetic
import Fluxion.Proofs.Fault
import Fluxion.Proofs.Tree.Substitution

namespace Fluxion

/-- What is bound last comes first. -/
theorem Environment.get?_cons {β : Type} (env : Environment β) (x y : String) (b : β) :
    Environment.get? ((x, b) :: env) y = if x = y then some b else env.get? y := by
  unfold Environment.get?
  rw [List.find?_cons]
  by_cases h : x = y
  · simp [h]
  · simp [h, beq_eq_false_iff_ne.mpr h]

/-- Two evaluations that tell the same: the same number, the same variable
without a value, or no value of either tree. -/
inductive SameOutcome {α : Type} : Except (Fault α) α → Except (Fault α) α → Prop
  | number (a : α) : SameOutcome (.ok a) (.ok a)
  | unbound (x : String) : SameOutcome (.error (.unbound x)) (.error (.unbound x))
  | undefined (t u : Tree α) : SameOutcome (.error (.undefined t)) (.error (.undefined u))

namespace Tree

variable {α : Type} [Scalar α] {env : Environment α} {n : Tree α} {a : α}

theorem value_substitute (hn : n.value env = .ok a) (w : String) (t : Tree α) :
    (substitute (.var w) n t).value env = t.value ((w, a) :: env) := by
  induction t with
  | var x =>
    rw [value.eq_1 ((w, a) :: env), Environment.get?_cons]
    by_cases h : x = w
    · rw [h, substitute_var_self, if_pos rfl, hn]
    · rw [substitute_var_of_ne w n h, if_neg (Ne.symm h), value]
  | const b => rw [substitute_const, value, value]
  | binary op l r hl hr => simp [value, hl, hr]
  | unary op u hu => simp [value, hu]
  | relate rel l r hl hr => simp [value, hl, hr]
  | branch c t f hc ht hf => simp [value, hc, ht, hf]

/-- **The substitution lemma.** -/
theorem evaluate_substitute (hn : n.evaluate env = .ok a) (t : Tree α) (w : String) :
    SameOutcome ((substitute (.var w) n t).evaluate env) (t.evaluate ((w, a) :: env)) := by
  obtain ⟨hvalue, -⟩ := evaluate_eq_ok.mp hn
  have hsame := value_substitute hvalue w t
  unfold evaluate
  rw [hsame]
  cases h : t.value ((w, a) :: env) with
  | error e =>
    obtain ⟨x, rfl⟩ := value_eq_error h
    exact .unbound x
  | ok b =>
    simp only [bind, Except.bind]
    split
    · exact .number b
    · exact .undefined _ _

/-- `x > 1 ? x * x : y`. -/
def guardedSquare : Tree Float :=
  .branch (.relate .gt (.var "x") (.const 1)) (.binary .mul (.var "x") (.var "x")) (.var "y")

def successor : Tree Float := .binary .add (.var "x") (.const 1)

/-- At one, and without a value for `y`, `guardedSquare` has no value; with
`x + 1` in the place of `x` the branch that needs `y` is no longer taken. -/
theorem evaluate_substitute_guardedSquare :
    guardedSquare.evaluate [("x", 1)] = .error (.unbound "y") ∧
      successor.evaluate [("x", 1)] = .ok (1 + 1) ∧
      guardedSquare.evaluate [("x", 1 + 1), ("x", 1)] = .ok ((1 + 1) * (1 + 1)) ∧
      SameOutcome ((substitute (.var "x") successor guardedSquare).evaluate [("x", 1)])
        (guardedSquare.evaluate [("x", 1 + 1), ("x", 1)]) := by
  have hsucc : successor.evaluate [("x", 1)] = .ok (1 + 1) := rfl
  exact ⟨rfl, hsucc, rfl, evaluate_substitute hsucc guardedSquare "x"⟩

end Tree

end Fluxion
