/-
Expression trees: variables, literals, arithmetic, named functions,
comparisons and conditionals. A comparison has the value one where it
holds and zero elsewhere; a conditional chooses by whether its test is
zero.

Beside the type stand the measures that later modules bound things by
(`size`, `depth`) and the variables of a tree: `names` lists their
occurrences from left to right, `mentions` asks for one, `distinctNames` is
the set in code point order.
-/
import Fluxion.Scalar

namespace Fluxion

/-- An expression over numbers of type `α`. -/
inductive Tree (α : Type) where
  | var (name : String)
  | const (value : α)
  | binary (op : BinaryOp) (left right : Tree α)
  | unary (op : UnaryOp) (operand : Tree α)
  | relate (rel : Relation) (left right : Tree α)
  | branch (test yes no : Tree α)

namespace Tree

variable {α : Type}

/-! ## Shape -/

def children : Tree α → List (Tree α)
  | .var _ | .const _ => []
  | .binary _ l r | .relate _ l r => [l, r]
  | .unary _ u => [u]
  | .branch c t f => [c, t, f]

/-- The same node over other children, or nothing when too few are given;
a leaf has none to replace and further children are ignored. -/
def withChildren? : Tree α → List (Tree α) → Option (Tree α)
  | .binary op _ _, l :: r :: _ => some (.binary op l r)
  | .unary op _, u :: _ => some (.unary op u)
  | .relate rel _ _, l :: r :: _ => some (.relate rel l r)
  | .branch _ _ _, c :: t :: f :: _ => some (.branch c t f)
  | .var x, _ => some (.var x)
  | .const a, _ => some (.const a)
  | _, _ => none

theorem withChildren?_children (t : Tree α) : t.withChildren? t.children = some t := by
  cases t <;> rfl

/-- The number of nodes. -/
def size : Tree α → Nat
  | .var _ | .const _ => 1
  | .binary _ l r | .relate _ l r => 1 + l.size + r.size
  | .unary _ u => 1 + u.size
  | .branch c t f => 1 + c.size + t.size + f.size

/-- The number of levels; a leaf has one. -/
def depth : Tree α → Nat
  | .var _ | .const _ => 1
  | .binary _ l r | .relate _ l r => 1 + Nat.max l.depth r.depth
  | .unary _ u => 1 + u.depth
  | .branch c t f => 1 + Nat.max (Nat.max c.depth t.depth) f.depth

theorem size_pos (t : Tree α) : 0 < t.size := by
  cases t <;> unfold size <;> omega

theorem depth_pos (t : Tree α) : 0 < t.depth := by
  cases t <;> unfold depth <;> omega

theorem size_lt_of_mem_children {c t : Tree α} (h : c ∈ t.children) : c.size < t.size := by
  cases t with
  | var x => cases h
  | const a => cases h
  | binary op l r =>
    simp only [children, List.mem_cons, List.not_mem_nil, or_false] at h
    rcases h with rfl | rfl <;> simp only [size] <;> omega
  | unary op u =>
    simp only [children, List.mem_cons, List.not_mem_nil, or_false] at h
    subst h
    simp only [size]
    omega
  | relate rel l r =>
    simp only [children, List.mem_cons, List.not_mem_nil, or_false] at h
    rcases h with rfl | rfl <;> simp only [size] <;> omega
  | branch c t f =>
    simp only [children, List.mem_cons, List.not_mem_nil, or_false] at h
    rcases h with rfl | rfl | rfl <;> simp only [size] <;> omega

theorem depth_le_succ_iff {n : Nat} {t : Tree α} :
    t.depth ≤ n + 1 ↔ ∀ c ∈ t.children, c.depth ≤ n := by
  have max_le (a b : Nat) : Nat.max a b ≤ n ↔ a ≤ n ∧ b ≤ n := Nat.max_le
  cases t with
  | var x => simp [depth, children]
  | const a => simp [depth, children]
  | binary op l r =>
    rw [depth, Nat.add_comm, Nat.add_le_add_iff_right, max_le]
    simp [children]
  | unary op u =>
    rw [depth, Nat.add_comm, Nat.add_le_add_iff_right]
    simp [children]
  | relate rel l r =>
    rw [depth, Nat.add_comm, Nat.add_le_add_iff_right, max_le]
    simp [children]
  | branch c t f =>
    rw [depth, Nat.add_comm, Nat.add_le_add_iff_right, max_le, max_le]
    simp [children, and_assoc]

/-! ## Variables -/

/-- The names of the variable nodes, left to right, repeats kept. -/
def names : Tree α → List String
  | .var x => [x]
  | .const _ => []
  | .binary _ l r | .relate _ l r => l.names ++ r.names
  | .unary _ u => u.names
  | .branch c t f => c.names ++ t.names ++ f.names

theorem mem_names_of_mem_children {c t : Tree α} (h : c ∈ t.children) {x : String}
    (hx : x ∈ c.names) : x ∈ t.names := by
  cases t <;> simp only [children, List.mem_cons, List.not_mem_nil, or_false] at h
  case binary => rcases h with rfl | rfl <;> simp [names, hx]
  case unary => subst h; exact hx
  case relate => rcases h with rfl | rfl <;> simp [names, hx]
  case branch => rcases h with rfl | rfl | rfl <;> simp [names, hx]

/-- Whether the variable `v` occurs. -/
def mentions (v : String) : Tree α → Bool
  | .var x => x == v
  | .const _ => false
  | .binary _ l r | .relate _ l r => l.mentions v || r.mentions v
  | .unary _ u => u.mentions v
  | .branch c t f => c.mentions v || t.mentions v || f.mentions v

theorem mentions_iff (v : String) (t : Tree α) : t.mentions v = true ↔ v ∈ t.names := by
  induction t with
  | var x => simp only [mentions, names, List.mem_singleton, beq_iff_eq]; exact eq_comm
  | const a => simp [mentions, names]
  | binary op l r hl hr => simp [mentions, names, hl, hr]
  | unary op u hu => simp [mentions, names, hu]
  | relate rel l r hl hr => simp [mentions, names, hl, hr]
  | branch c t f hc ht hf => simp [mentions, names, hc, ht, hf, or_assoc]

theorem mentions_eq_false_iff (v : String) (t : Tree α) : t.mentions v = false ↔ v ∉ t.names := by
  rw [← mentions_iff, Bool.not_eq_true]

/-- The order of two texts by code point. -/
def precedes : List Char → List Char → Bool
  | [], [] => false
  | [], _ :: _ => true
  | _ :: _, [] => false
  | a :: as, b :: bs =>
    if a.toNat < b.toNat then true
    else if b.toNat < a.toNat then false
    else precedes as bs

/-- Adds a name to a list in code point order that holds each name once. -/
def insertName (x : String) : List String → List String
  | [] => [x]
  | y :: ys =>
    if x == y then y :: ys
    else if precedes x.toList y.toList then x :: y :: ys
    else y :: insertName x ys

theorem mem_insertName (x y : String) (ys : List String) :
    y ∈ insertName x ys ↔ y = x ∨ y ∈ ys := by
  induction ys with
  | nil => simp [insertName]
  | cons z zs ih =>
    simp only [insertName]
    split
    · rename_i h
      have : x = z := by simpa using h
      subst this
      simp
    · split
      · simp
      · simp only [List.mem_cons, ih]
        constructor
        · rintro (h | h | h) <;> simp [h]
        · rintro (h | h | h) <;> simp [h]

/-- The variables in code point order, each once. -/
def distinctNames (t : Tree α) : List String :=
  t.names.foldr insertName []

theorem mem_distinctNames (v : String) (t : Tree α) : v ∈ t.distinctNames ↔ v ∈ t.names := by
  unfold distinctNames
  induction t.names with
  | nil => simp
  | cons x xs ih => simp [mem_insertName, ih]

/-! ## Kinds and literals -/

/-- The six kinds of node. -/
inductive Kind where
  | variable
  | constant
  | binary
  | unary
  | comparison
  | conditional
deriving DecidableEq

def kind : Tree α → Kind
  | .var _ => .variable
  | .const _ => .constant
  | .binary _ _ _ => .binary
  | .unary _ _ => .unary
  | .relate _ _ _ => .comparison
  | .branch _ _ _ => .conditional

namespace Kind

/-- The name a node of this kind goes by in messages. -/
def title : Kind → String
  | .variable => "VariableNode"
  | .constant => "ConstantNode"
  | .binary => "BinaryOpNode"
  | .unary => "UnaryOpNode"
  | .comparison => "ComparisonNode"
  | .conditional => "ConditionalNode"

def code : Kind → Nat
  | .variable => 0
  | .constant => 1
  | .binary => 2
  | .unary => 3
  | .comparison => 4
  | .conditional => 5

/-- The heading of the kind in a listing. -/
def heading : Kind → String
  | .variable => "VARIABLE"
  | .constant => "CONSTANT"
  | .binary => "BINARY_OP"
  | .unary => "UNARY_OP"
  | .comparison => "COMPARISON"
  | .conditional => "CONDITIONAL"

def all : List Kind := [.variable, .constant, .binary, .unary, .comparison, .conditional]

end Kind

/-- The symbol of an operator node; a leaf or conditional has none. -/
def operatorSymbol? : Tree α → Option String
  | .binary op _ _ => some op.symbol
  | .unary op _ => some op.symbol
  | .relate rel _ _ => some rel.symbol
  | _ => none

section Literal

variable [Scalar α]

/-- A literal whose value equals `n`. -/
def isLiteral (n : Nat) : Tree α → Bool
  | .const a => Scalar.eq a (Scalar.ofNat n)
  | _ => false

/-- Every literal in the tree is finite. -/
def AllFinite : Tree α → Prop
  | .var _ => True
  | .const a => Scalar.isFinite a = true
  | .binary _ l r | .relate _ l r => l.AllFinite ∧ r.AllFinite
  | .unary _ u => u.AllFinite
  | .branch c t f => c.AllFinite ∧ t.AllFinite ∧ f.AllFinite

def zero : Tree α := .const Scalar.zero
def one : Tree α := .const Scalar.one
def two : Tree α := .const Scalar.two

end Literal

def add (l r : Tree α) : Tree α := .binary .add l r
def sub (l r : Tree α) : Tree α := .binary .sub l r
def mul (l r : Tree α) : Tree α := .binary .mul l r
def div (l r : Tree α) : Tree α := .binary .div l r
def pow (l r : Tree α) : Tree α := .binary .pow l r
def neg (u : Tree α) : Tree α := .unary .neg u

end Tree

end Fluxion
