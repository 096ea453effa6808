/-
Exact values. A tree is read over an ordered field `K` at an assignment of
its variables: the four operations of arithmetic are those of the field,
powers and named functions are partial, and what has no value is
undefined together with everything that evaluates it. A conditional
evaluates its test and the branch the test selects, and nothing else.

`Exact α K` says that the numbers of type `α` are exact: each of them that
is finite stands for an element of `K`, and a kernel gives the exact
result where there is one and a number that is not finite elsewhere. It
says next to nothing of what a kernel makes of a number that is not
finite, so infinities may come and go as they do in floating point.
-/
import Mathlib.Algebra.Order.Field.Basic
import Fluxion.Tree.Equality

namespace Fluxion

/-- Powers and named functions over a field, partial. -/
class Elementary (K : Type) [Field K] [LinearOrder K] where
  power : K → K → Option K
  function : UnaryOp → K → Option K
  power_zero (x : K) : power x 0 = some 1
  power_one (x : K) : power x 1 = some x
  one_power (x : K) : power 1 x = some 1

/-- Whether a comparison holds between two elements of an order. -/
def Relation.exact {K : Type} [LinearOrder K] (rel : Relation) (x y : K) : Bool :=
  match rel with
  | .lt => decide (x < y)
  | .le => decide (x ≤ y)
  | .gt => decide (y < x)
  | .ge => decide (y ≤ x)
  | .eq => decide (x = y)
  | .ne => decide (x ≠ y)

section Operations

variable {K : Type} [Field K] [LinearOrder K] [Elementary K]

/-- The exact result of an operation; a quotient by zero has none. -/
def BinaryOp.exact (op : BinaryOp) (x y : K) : Option K :=
  match op with
  | .add => some (x + y)
  | .sub => some (x - y)
  | .mul => some (x * y)
  | .div => if y = 0 then none else some (x / y)
  | .pow => Elementary.power x y

def UnaryOp.exact (op : UnaryOp) (x : K) : Option K :=
  match op with
  | .neg => some (-x)
  | op => Elementary.function op x

theorem BinaryOp.exact_div_eq_some {x y z : K} :
    BinaryOp.div.exact x y = some z ↔ y ≠ 0 ∧ x / y = z := by
  simp [BinaryOp.exact]

end Operations

/-- Numbers that are read in `K` and computed exactly. -/
class Exact (α : Type) (K : outParam Type) [Field K] [LinearOrder K] [Elementary K]
    [Scalar α] where
  reading : α → Option K
  isFinite_eq (a : α) : Scalar.isFinite a = (reading a).isSome
  reading_ofNat (n : Nat) : reading (Scalar.ofNat n) = some n
  reading_binary {op : BinaryOp} {a b : α} {x y : K} (ha : reading a = some x)
    (hb : reading b = some y) : reading (Scalar.binary op a b) = op.exact x y
  reading_unary {op : UnaryOp} {a : α} {x : K} (ha : reading a = some x) :
    reading (Scalar.unary op a) = op.exact x
  holds_eq {rel : Relation} {a b : α} {x y : K} (ha : reading a = some x)
    (hb : reading b = some y) : Scalar.holds rel a b = rel.exact x y
  /-- A number equal to a finite one is finite. -/
  isFinite_of_eq {a b : α} (h : Scalar.eq a b = true) (hb : Scalar.isFinite b = true) :
    Scalar.isFinite a = true

namespace Exact

variable {α K : Type} [Field K] [LinearOrder K] [Elementary K] [Scalar α] [Exact α K]

@[simp] theorem reading_zero : reading (Scalar.zero : α) = some (0 : K) :=
  (reading_ofNat 0).trans (congrArg some Nat.cast_zero)

@[simp] theorem reading_one : reading (Scalar.one : α) = some (1 : K) :=
  (reading_ofNat 1).trans (congrArg some Nat.cast_one)

@[simp] theorem reading_two : reading (Scalar.two : α) = some (2 : K) :=
  (reading_ofNat 2).trans (congrArg some Nat.cast_ofNat)

theorem reading_neg {a : α} {x : K} (ha : reading a = some x) :
    reading (Scalar.neg a) = some (-x) :=
  (reading_unary ha : reading (Scalar.unary .neg a) = UnaryOp.neg.exact x)

theorem reading_add {a b : α} {x y : K} (ha : reading a = some x) (hb : reading b = some y) :
    reading (Scalar.add a b) = some (x + y) :=
  (reading_binary ha hb : reading (Scalar.binary .add a b) = BinaryOp.add.exact x y)

theorem reading_sub {a b : α} {x y : K} (ha : reading a = some x) (hb : reading b = some y) :
    reading (Scalar.sub a b) = some (x - y) :=
  (reading_binary ha hb : reading (Scalar.binary .sub a b) = BinaryOp.sub.exact x y)

theorem reading_mul {a b : α} {x y : K} (ha : reading a = some x) (hb : reading b = some y) :
    reading (Scalar.mul a b) = some (x * y) :=
  (reading_binary ha hb : reading (Scalar.binary .mul a b) = BinaryOp.mul.exact x y)

theorem reading_div {a b : α} {x y : K} (ha : reading a = some x) (hb : reading b = some y)
    (hy : y ≠ 0) : reading (Scalar.div a b) = some (x / y) := by
  have h : reading (Scalar.binary .div a b) = BinaryOp.div.exact x y := reading_binary ha hb
  rwa [BinaryOp.exact_div_eq_some.mpr ⟨hy, rfl⟩] at h

theorem eq_iff {a b : α} {x y : K} (ha : reading a = some x) (hb : reading b = some y) :
    Scalar.eq a b = true ↔ x = y := by
  simp [Scalar.eq, holds_eq ha hb, Relation.exact]

theorem reading_of_isFinite {a : α} (h : Scalar.isFinite a = true) :
    ∃ x : K, reading a = some x := by
  rw [isFinite_eq] at h
  exact Option.isSome_iff_exists.mp h

theorem isFinite_of_reading {a : α} {x : K} (h : reading a = some x) :
    Scalar.isFinite a = true := by
  rw [isFinite_eq, h]; rfl

end Exact

namespace Tree

open Exact (reading)

variable {α K : Type} [Field K] [LinearOrder K] [Elementary K] [Scalar α] [Exact α K]

/-- The value at an assignment when literals are read by `read`. -/
def valueBy {β : Type} (read : β → Option K) (env : String → K) : Tree β → Option K
  | .var x => some (env x)
  | .const a => read a
  | .binary op l r => do
    let x ← l.valueBy read env
    let y ← r.valueBy read env
    op.exact x y
  | .unary op u => do
    let x ← u.valueBy read env
    op.exact x
  | .relate rel l r => do
    let x ← l.valueBy read env
    let y ← r.valueBy read env
    return if rel.exact x y then 1 else 0
  | .branch c t f => do
    let x ← c.valueBy read env
    if x = 0 then f.valueBy read env else t.valueBy read env

section Values

variable {β : Type} {read : β → Option K} {env : String → K} {l r u c t f : Tree β} {z : K}

theorem valueBy_binary_eq_some {op : BinaryOp} : (Tree.binary op l r).valueBy read env = some z ↔
    ∃ x y, l.valueBy read env = some x ∧ r.valueBy read env = some y ∧ op.exact x y = some z := by
  simp [valueBy, Option.bind_eq_some_iff]

theorem valueBy_unary_eq_some {op : UnaryOp} : (Tree.unary op u).valueBy read env = some z ↔
    ∃ x, u.valueBy read env = some x ∧ op.exact x = some z := by
  simp [valueBy, Option.bind_eq_some_iff]

theorem valueBy_relate_eq_some {rel : Relation} :
    (Tree.relate rel l r).valueBy read env = some z ↔
      ∃ x y, l.valueBy read env = some x ∧ r.valueBy read env = some y ∧
        (if rel.exact x y then 1 else 0) = z := by
  simp [valueBy, Option.bind_eq_some_iff]

theorem valueBy_branch_eq_some : (Tree.branch c t f).valueBy read env = some z ↔
    ∃ x, c.valueBy read env = some x ∧
      (if x = 0 then f.valueBy read env else t.valueBy read env) = some z := by
  simp [valueBy, Option.bind_eq_some_iff]

end Values

/-- The exact value at an assignment, if the tree has one. -/
def exact (env : String → K) (t : Tree α) : Option K := t.valueBy reading env

section Inversion

variable {env : String → K} {l r u c t f : Tree α} {z : K}

@[simp] theorem exact_var (x : String) : (Tree.var x : Tree α).exact env = some (env x) := rfl

@[simp] theorem exact_const (a : α) : (Tree.const a).exact env = reading a := rfl

@[simp] theorem exact_zero : (zero : Tree α).exact env = some 0 := Exact.reading_zero

@[simp] theorem exact_one : (one : Tree α).exact env = some 1 := Exact.reading_one

@[simp] theorem exact_two : (two : Tree α).exact env = some 2 := Exact.reading_two

theorem exact_binary_eq_some {op : BinaryOp} : (Tree.binary op l r).exact env = some z ↔
    ∃ x y, l.exact env = some x ∧ r.exact env = some y ∧ op.exact x y = some z :=
  valueBy_binary_eq_some

theorem exact_unary_eq_some {op : UnaryOp} : (Tree.unary op u).exact env = some z ↔
    ∃ x, u.exact env = some x ∧ op.exact x = some z :=
  valueBy_unary_eq_some

theorem exact_relate_eq_some {rel : Relation} : (Tree.relate rel l r).exact env = some z ↔
    ∃ x y, l.exact env = some x ∧ r.exact env = some y ∧
      (if rel.exact x y then 1 else 0) = z :=
  valueBy_relate_eq_some

theorem exact_branch_eq_some : (Tree.branch c t f).exact env = some z ↔
    ∃ x, c.exact env = some x ∧ (if x = 0 then f.exact env else t.exact env) = some z :=
  valueBy_branch_eq_some

theorem exact_add_eq_some : (Tree.binary .add l r).exact env = some z ↔
    ∃ x y, l.exact env = some x ∧ r.exact env = some y ∧ x + y = z := by
  simp [exact_binary_eq_some, BinaryOp.exact]

theorem exact_sub_eq_some : (Tree.binary .sub l r).exact env = some z ↔
    ∃ x y, l.exact env = some x ∧ r.exact env = some y ∧ x - y = z := by
  simp [exact_binary_eq_some, BinaryOp.exact]

theorem exact_mul_eq_some : (Tree.binary .mul l r).exact env = some z ↔
    ∃ x y, l.exact env = some x ∧ r.exact env = some y ∧ x * y = z := by
  simp [exact_binary_eq_some, BinaryOp.exact]

theorem exact_div_eq_some : (Tree.binary .div l r).exact env = some z ↔
    ∃ x y, l.exact env = some x ∧ r.exact env = some y ∧ y ≠ 0 ∧ x / y = z := by
  simp [exact_binary_eq_some, BinaryOp.exact_div_eq_some]

theorem exact_pow_eq_some : (Tree.binary .pow l r).exact env = some z ↔
    ∃ x y, l.exact env = some x ∧ r.exact env = some y ∧ Elementary.power x y = some z := by
  simp [exact_binary_eq_some, BinaryOp.exact]

theorem exact_neg_eq_some : (Tree.unary .neg u).exact env = some z ↔
    ∃ x, u.exact env = some x ∧ -x = z := by
  simp [exact_unary_eq_some, UnaryOp.exact]

end Inversion

/-! ## What a value depends on -/

/-- Two assignments that agree on the variables of a tree give it the same
value. -/
theorem exact_congr {t : Tree α} {env env' : String → K} (h : ∀ x ∈ t.names, env x = env' x) :
    t.exact env = t.exact env' := by
  unfold exact
  induction t with
  | var x => simp [valueBy, h x (by simp [names])]
  | const a => rfl
  | binary op l r hl hr =>
    simp only [names, List.mem_append] at h
    simp only [valueBy, hl fun x hx => h x (.inl hx), hr fun x hx => h x (.inr hx)]
  | unary op u hu => simp only [valueBy, hu h]
  | relate rel l r hl hr =>
    simp only [names, List.mem_append] at h
    simp only [valueBy, hl fun x hx => h x (.inl hx), hr fun x hx => h x (.inr hx)]
  | branch c t f hc ht hf =>
    simp only [names, List.mem_append] at h
    simp only [valueBy, hc fun x hx => h x (.inl (.inl hx)), ht fun x hx => h x (.inl (.inr hx)),
      hf fun x hx => h x (.inr hx)]

/-- A tree without `v` has one value for all values of `v`. -/
theorem exact_update_of_not_mentions {t : Tree α} {v : String} (h : t.mentions v = false)
    (env : String → K) (x : K) : t.exact (Function.update env v x) = t.exact env := by
  refine exact_congr fun y hy => ?_
  have hne : y ≠ v := by
    rintro rfl
    exact (mentions_eq_false_iff y t).mp h hy
  exact Function.update_of_ne hne x env

/-! ## Trees with one value -/

/-- The two trees have the same value wherever both have one. This is no
equivalence, as a tree without a value agrees with all others; but every
kind of node respects it. -/
def Agree (env : String → K) (a b : Tree α) : Prop :=
  ∀ ⦃x y⦄, a.exact env = some x → b.exact env = some y → x = y

namespace Agree

variable {env : String → K} {a a' b b' c c' : Tree α}

theorem refl (a : Tree α) : Agree env a a := fun _ _ hx hy => Option.some.inj (hx.symm.trans hy)

theorem binary (op : BinaryOp) (ha : Agree env a a') (hb : Agree env b b') :
    Agree env (.binary op a b) (.binary op a' b') := by
  intro x y hx hy
  obtain ⟨x₁, x₂, hx₁, hx₂, hx⟩ := exact_binary_eq_some.mp hx
  obtain ⟨y₁, y₂, hy₁, hy₂, hy⟩ := exact_binary_eq_some.mp hy
  rw [ha hx₁ hy₁, hb hx₂ hy₂, hy] at hx
  exact (Option.some.inj hx).symm

theorem unary (op : UnaryOp) (ha : Agree env a a') : Agree env (.unary op a) (.unary op a') := by
  intro x y hx hy
  obtain ⟨x₁, hx₁, hx⟩ := exact_unary_eq_some.mp hx
  obtain ⟨y₁, hy₁, hy⟩ := exact_unary_eq_some.mp hy
  rw [ha hx₁ hy₁, hy] at hx
  exact (Option.some.inj hx).symm

theorem relate (rel : Relation) (ha : Agree env a a') (hb : Agree env b b') :
    Agree env (.relate rel a b) (.relate rel a' b') := by
  intro x y hx hy
  obtain ⟨x₁, x₂, hx₁, hx₂, hx⟩ := exact_relate_eq_some.mp hx
  obtain ⟨y₁, y₂, hy₁, hy₂, hy⟩ := exact_relate_eq_some.mp hy
  rw [ha hx₁ hy₁, hb hx₂ hy₂, hy] at hx
  exact hx.symm

/-- The tests agree, so both take the same branch. -/
theorem branch (hc : Agree env c c') (ha : Agree env a a') (hb : Agree env b b') :
    Agree env (.branch c a b) (.branch c' a' b') := by
  intro x y hx hy
  obtain ⟨x₁, hx₁, hx⟩ := exact_branch_eq_some.mp hx
  obtain ⟨y₁, hy₁, hy⟩ := exact_branch_eq_some.mp hy
  obtain rfl := hc hx₁ hy₁
  split at hx <;> rename_i h₀
  · rw [if_pos h₀] at hy; exact hb hx hy
  · rw [if_neg h₀] at hy; exact ha hx hy

end Agree

/-- Trees that are the same node by node, up to the spelling of literals,
have the same value. -/
theorem agree_of_same {a b : Tree α} {env : String → K} (h : a.same b = true) :
    Agree env a b := by
  induction a generalizing b with
  | var s =>
    cases b <;> simp only [same, Bool.false_eq_true, beq_iff_eq] at h
    subst h
    exact .refl _
  | const s =>
    cases b <;> simp only [same, Bool.false_eq_true] at h
    exact fun _ _ ha hb => (Exact.eq_iff ha hb).mp h
  | binary op l r hl hr =>
    cases b <;> simp only [same, Bool.false_eq_true, Bool.and_eq_true, beq_iff_eq] at h
    obtain ⟨⟨rfl, h₁⟩, h₂⟩ := h
    exact .binary op (hl h₁) (hr h₂)
  | unary op u hu =>
    cases b <;> simp only [same, Bool.false_eq_true, Bool.and_eq_true, beq_iff_eq] at h
    obtain ⟨rfl, h₁⟩ := h
    exact .unary op (hu h₁)
  | relate rel l r hl hr =>
    cases b <;> simp only [same, Bool.false_eq_true, Bool.and_eq_true, beq_iff_eq] at h
    obtain ⟨⟨rfl, h₁⟩, h₂⟩ := h
    exact .relate rel (hl h₁) (hr h₂)
  | branch c t f hc ht hf =>
    cases b <;> simp only [same, Bool.false_eq_true, Bool.and_eq_true] at h
    obtain ⟨⟨h₁, h₂⟩, h₃⟩ := h
    exact .branch (hc h₁) (ht h₂) (hf h₃)

/-- Equality with fingerprints finds no more than equality without. -/
theorem same_of_equal {d : Digest α} {a b : Tree α} (h : a.equal d b = true) :
    a.same b = true := by
  induction a generalizing b with
  | var s => cases b <;> simp_all [equal, same]
  | const s => cases b <;> simp_all [equal, same]
  | binary op l r hl hr =>
    cases b <;> simp only [equal, Bool.false_eq_true, Bool.and_eq_true] at h
    simp [same, h.2.1, hl h.2.2.1, hr h.2.2.2]
  | unary op u hu =>
    cases b <;> simp only [equal, Bool.false_eq_true, Bool.and_eq_true] at h
    simp [same, h.2.1, hu h.2.2]
  | relate rel l r hl hr =>
    cases b <;> simp only [equal, Bool.false_eq_true, Bool.and_eq_true] at h
    simp [same, h.2.1, hl h.2.2.1, hr h.2.2.2]
  | branch c t f hc ht hf =>
    cases b <;> simp only [equal, Bool.false_eq_true, Bool.and_eq_true] at h
    simp [same, hc h.2.1, ht h.2.2.1, hf h.2.2.2]

theorem exact_eq_of_eq {a b : Tree α} {env : String → K} {x y : K} (h : a.eq b = true)
    (ha : a.exact env = some x) (hb : b.exact env = some y) : x = y :=
  agree_of_same (same_of_equal h) ha hb

theorem exact_of_isLiteral {t : Tree α} {n : Nat} {env : String → K} {x : K}
    (h : t.isLiteral n = true) (hx : t.exact env = some x) : x = n := by
  cases t <;> simp only [isLiteral, Bool.false_eq_true] at h
  exact (Exact.eq_iff hx (Exact.reading_ofNat n)).mp h

end Tree

end Fluxion
