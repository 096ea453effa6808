/-
Where a tree is defined, and its value as a total function. `worth` is
zero where there is no value, which makes products, quotients and
opposites come out right without asking; sums and differences have to be
defined.
-/
import Fluxion.Proofs.Exact

namespace Fluxion.Tree

open Exact (reading)

variable {α K : Type} [Field K] [LinearOrder K] [Elementary K] [Scalar α] [Exact α K]

/-- The tree has a value at the assignment. -/
def Defined (env : String → K) (t : Tree α) : Prop := ∃ x, t.exact env = some x

/-- The value, or zero where there is none. -/
def worth (env : String → K) (t : Tree α) : K := (t.exact env).getD 0

variable {env : String → K} {l r u t : Tree α} {x : K}

theorem worth_eq (h : t.exact env = some x) : t.worth env = x := by
  rw [worth, h, Option.getD_some]

theorem Defined.exact_eq (h : t.Defined env) : t.exact env = some (t.worth env) := by
  obtain ⟨x, hx⟩ := h
  rw [worth_eq hx, hx]

theorem defined_of_exact (h : t.exact env = some x) : t.Defined env := ⟨x, h⟩

theorem worth_of_not_defined (h : ¬ t.Defined env) : t.worth env = 0 := by
  have hnone : t.exact env = none := by
    cases hx : t.exact env with
    | none => rfl
    | some x => exact absurd ⟨x, hx⟩ h
  rw [worth, hnone, Option.getD_none]

/-! ## Where operations are defined -/

@[simp] theorem defined_var (y : String) : (Tree.var y : Tree α).Defined env := ⟨_, exact_var y⟩

@[simp] theorem defined_zero : (zero : Tree α).Defined env := ⟨_, exact_zero⟩

@[simp] theorem defined_one : (one : Tree α).Defined env := ⟨_, exact_one⟩

@[simp] theorem defined_two : (two : Tree α).Defined env := ⟨_, exact_two⟩

@[simp] theorem defined_add :
    (Tree.binary .add l r).Defined env ↔ l.Defined env ∧ r.Defined env := by
  simp only [Defined, exact_add_eq_some]
  constructor
  · rintro ⟨-, x, y, hx, hy, -⟩; exact ⟨⟨x, hx⟩, y, hy⟩
  · rintro ⟨⟨x, hx⟩, y, hy⟩; exact ⟨_, x, y, hx, hy, rfl⟩

@[simp] theorem defined_sub :
    (Tree.binary .sub l r).Defined env ↔ l.Defined env ∧ r.Defined env := by
  simp only [Defined, exact_sub_eq_some]
  constructor
  · rintro ⟨-, x, y, hx, hy, -⟩; exact ⟨⟨x, hx⟩, y, hy⟩
  · rintro ⟨⟨x, hx⟩, y, hy⟩; exact ⟨_, x, y, hx, hy, rfl⟩

@[simp] theorem defined_mul :
    (Tree.binary .mul l r).Defined env ↔ l.Defined env ∧ r.Defined env := by
  simp only [Defined, exact_mul_eq_some]
  constructor
  · rintro ⟨-, x, y, hx, hy, -⟩; exact ⟨⟨x, hx⟩, y, hy⟩
  · rintro ⟨⟨x, hx⟩, y, hy⟩; exact ⟨_, x, y, hx, hy, rfl⟩

@[simp] theorem defined_div :
    (Tree.binary .div l r).Defined env ↔ l.Defined env ∧ r.Defined env ∧ r.worth env ≠ 0 := by
  simp only [Defined, exact_div_eq_some]
  constructor
  · rintro ⟨-, x, y, hx, hy, hne, -⟩
    exact ⟨⟨x, hx⟩, ⟨y, hy⟩, by rwa [worth_eq hy]⟩
  · rintro ⟨⟨x, hx⟩, ⟨y, hy⟩, hne⟩
    exact ⟨_, x, y, hx, hy, by rwa [worth_eq hy] at hne, rfl⟩

@[simp] theorem defined_neg : (Tree.unary .neg u : Tree α).Defined env ↔ u.Defined env := by
  simp only [Defined, exact_neg_eq_some]
  constructor
  · rintro ⟨-, x, hx, -⟩; exact ⟨x, hx⟩
  · rintro ⟨x, hx⟩; exact ⟨_, x, hx, rfl⟩

/-! ## Values of operations -/

@[simp] theorem worth_var (y : String) : (Tree.var y : Tree α).worth env = env y := rfl

@[simp] theorem worth_zero : (zero : Tree α).worth env = 0 := worth_eq exact_zero

@[simp] theorem worth_one : (one : Tree α).worth env = 1 := worth_eq exact_one

@[simp] theorem worth_two : (two : Tree α).worth env = 2 := worth_eq exact_two

theorem worth_add (hl : l.Defined env) (hr : r.Defined env) :
    (Tree.binary .add l r).worth env = l.worth env + r.worth env :=
  worth_eq (exact_add_eq_some.mpr ⟨_, _, hl.exact_eq, hr.exact_eq, rfl⟩)

theorem worth_sub (hl : l.Defined env) (hr : r.Defined env) :
    (Tree.binary .sub l r).worth env = l.worth env - r.worth env :=
  worth_eq (exact_sub_eq_some.mpr ⟨_, _, hl.exact_eq, hr.exact_eq, rfl⟩)

@[simp] theorem worth_mul :
    (Tree.binary .mul l r : Tree α).worth env = l.worth env * r.worth env := by
  by_cases h : (Tree.binary .mul l r).Defined env
  · obtain ⟨hl, hr⟩ := defined_mul.mp h
    exact worth_eq (exact_mul_eq_some.mpr ⟨_, _, hl.exact_eq, hr.exact_eq, rfl⟩)
  · rw [worth_of_not_defined h]
    rw [defined_mul, not_and_or] at h
    rcases h with h | h <;> simp [worth_of_not_defined h]

@[simp] theorem worth_div :
    (Tree.binary .div l r : Tree α).worth env = l.worth env / r.worth env := by
  by_cases h : (Tree.binary .div l r).Defined env
  · obtain ⟨hl, hr, hne⟩ := defined_div.mp h
    exact worth_eq (exact_div_eq_some.mpr ⟨_, _, hl.exact_eq, hr.exact_eq, hne, rfl⟩)
  · rw [worth_of_not_defined h]
    rw [defined_div, not_and_or, not_and_or] at h
    rcases h with h | h | h
    · simp [worth_of_not_defined h]
    · simp [worth_of_not_defined h]
    · simp [not_not.mp h]

@[simp] theorem worth_neg : (Tree.unary .neg u : Tree α).worth env = -u.worth env := by
  by_cases h : u.Defined env
  · exact worth_eq (exact_neg_eq_some.mpr ⟨_, h.exact_eq, rfl⟩)
  · rw [worth_of_not_defined (mt defined_neg.mp h), worth_of_not_defined h, neg_zero]

end Fluxion.Tree
