/-
What becomes of a tree when another one is put in the place of a variable.
Only a variable node is ever equal to a variable, so every other node stays
and its operands are replaced. A variable that what is put in does not
mention occurs afterwards where it did before (`mentions_substitute`).
-/
import Fluxion.Tree.Substitution
import Fluxion.Derivative

namespace Fluxion.Tree

variable {α : Type} [Scalar α]

theorem eq_var_iff (x w : String) : (Tree.var x : Tree α).eq (.var w) = true ↔ x = w := by
  rw [eq, equal, Bool.and_eq_true, beq_iff_eq, beq_iff_eq]
  exact ⟨And.right, fun h => ⟨by rw [h], h⟩⟩

theorem eq_var_of_ne {t : Tree α} {w : String} (h : ∀ x, t ≠ .var x) : t.eq (.var w) = false := by
  cases t with
  | var x => exact absurd rfl (h x)
  | _ => rfl

/-! ## Nodes -/

section Nodes

variable (w : String) (n : Tree α)

@[simp] theorem substitute_var_self : substitute (.var w) n (.var w) = n :=
  if_pos ((eq_var_iff w w).mpr rfl)

theorem substitute_var_of_ne {x : String} (h : x ≠ w) :
    substitute (.var w) n (.var x) = .var x :=
  if_neg (mt (eq_var_iff x w).mp h)

@[simp] theorem substitute_const (a : α) : substitute (.var w) n (.const a) = .const a :=
  if_neg (by simp [eq_var_of_ne])

@[simp] theorem substitute_binary (op : BinaryOp) (l r : Tree α) :
    substitute (.var w) n (.binary op l r) =
      .binary op (substitute (.var w) n l) (substitute (.var w) n r) :=
  if_neg (by simp [eq_var_of_ne])

@[simp] theorem substitute_unary (op : UnaryOp) (u : Tree α) :
    substitute (.var w) n (.unary op u) = .unary op (substitute (.var w) n u) :=
  if_neg (by simp [eq_var_of_ne])

@[simp] theorem substitute_relate (rel : Relation) (l r : Tree α) :
    substitute (.var w) n (.relate rel l r) =
      .relate rel (substitute (.var w) n l) (substitute (.var w) n r) :=
  if_neg (by simp [eq_var_of_ne])

@[simp] theorem substitute_branch (c t f : Tree α) :
    substitute (.var w) n (.branch c t f) =
      .branch (substitute (.var w) n c) (substitute (.var w) n t) (substitute (.var w) n f) :=
  if_neg (by simp [eq_var_of_ne])

@[simp] theorem substitute_zero : substitute (.var w) n zero = zero := substitute_const w n _

@[simp] theorem substitute_one : substitute (.var w) n one = one := substitute_const w n _

@[simp] theorem substitute_two : substitute (.var w) n two = two := substitute_const w n _

/-- An outer derivative is built on its operand. -/
theorem substitute_outerDerivative (op : UnaryOp) (u : Tree α) :
    substitute (.var w) n (outerDerivative op u) =
      outerDerivative op (substitute (.var w) n u) := by
  cases op <;> simp [outerDerivative, squared]

end Nodes

/-! ## Variables -/

theorem mentions_substitute {v w : String} {n : Tree α} (hvw : v ≠ w) (hn : n.mentions v = false)
    (t : Tree α) : (substitute (.var w) n t).mentions v = t.mentions v := by
  induction t with
  | var x =>
    by_cases hx : x = w
    · rw [hx, substitute_var_self, hn, mentions, beq_eq_false_iff_ne.mpr hvw.symm]
    · rw [substitute_var_of_ne w n hx]
  | const a => rw [substitute_const]
  | binary op l r hl hr => simp [mentions, hl, hr]
  | unary op u hu => simp [mentions, hu]
  | relate rel l r hl hr => simp [mentions, hl, hr]
  | branch c t f hc ht hf => simp [mentions, hc, ht, hf]

end Fluxion.Tree
