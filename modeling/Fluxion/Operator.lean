/-
The operators an expression can carry: five arithmetic operations,
negation and twelve named functions, and six comparisons. Each has a
symbol, which is how it is read and printed, and a number in one shared
list (arithmetic first, then the one-place operators, then comparisons).
-/

namespace Fluxion

/-- An arithmetic operation on two operands. -/
inductive BinaryOp where
  | add
  | sub
  | mul
  | div
  | pow
deriving DecidableEq

/-- Negation, or a named function of one argument. -/
inductive UnaryOp where
  | neg
  | sin
  | cos
  | tan
  | sec
  | csc
  | cot
  | exp
  | ln
  | sqrt
  | asin
  | acos
  | atan
deriving DecidableEq

/-- A comparison of two values. -/
inductive Relation where
  | lt
  | le
  | gt
  | ge
  | eq
  | ne
deriving DecidableEq

/-! ## Arithmetic -/

namespace BinaryOp

def all : List BinaryOp := [.add, .sub, .mul, .div, .pow]

def symbol : BinaryOp → String
  | .add => "+"
  | .sub => "-"
  | .mul => "*"
  | .div => "/"
  | .pow => "^"

def ofSymbol? (s : String) : Option BinaryOp :=
  all.find? fun op => op.symbol == s

/-- Place in the shared list of operators. -/
def code : BinaryOp → Nat
  | .add => 0
  | .sub => 1
  | .mul => 2
  | .div => 3
  | .pow => 4

theorem mem_all (op : BinaryOp) : op ∈ all := by cases op <;> simp [all]

end BinaryOp

/-! ## Negation and named functions -/

namespace UnaryOp

def all : List UnaryOp :=
  [.neg, .sin, .cos, .tan, .sec, .csc, .cot, .exp, .ln, .sqrt, .asin, .acos, .atan]

def symbol : UnaryOp → String
  | .neg => "neg"
  | .sin => "sin"
  | .cos => "cos"
  | .tan => "tan"
  | .sec => "sec"
  | .csc => "csc"
  | .cot => "cot"
  | .exp => "exp"
  | .ln => "ln"
  | .sqrt => "sqrt"
  | .asin => "asin"
  | .acos => "acos"
  | .atan => "atan"

def ofSymbol? (s : String) : Option UnaryOp :=
  all.find? fun op => op.symbol == s

/-- Place in the shared list of operators. -/
def code : UnaryOp → Nat
  | .neg => 5
  | .sin => 6
  | .cos => 7
  | .tan => 8
  | .sec => 9
  | .csc => 10
  | .cot => 11
  | .exp => 12
  | .ln => 13
  | .sqrt => 14
  | .asin => 15
  | .acos => 16
  | .atan => 17

/-- Everything with one operand except negation. -/
def functions : List UnaryOp := all.filter fun op => op ≠ .neg

def trigonometric : List UnaryOp := [.sin, .cos, .tan, .sec, .csc, .cot]

theorem mem_all (op : UnaryOp) : op ∈ all := by cases op <;> simp [all]

theorem mem_functions (op : UnaryOp) : op ∈ functions ↔ op ≠ .neg := by
  simp [functions, mem_all]

end UnaryOp

/-! ## Comparisons -/

namespace Relation

def all : List Relation := [.lt, .le, .gt, .ge, .eq, .ne]

def symbol : Relation → String
  | .lt => "<"
  | .le => "<="
  | .gt => ">"
  | .ge => ">="
  | .eq => "=="
  | .ne => "!="

def ofSymbol? (s : String) : Option Relation :=
  all.find? fun op => op.symbol == s

/-- Place in the shared list of operators. -/
def code : Relation → Nat
  | .lt => 18
  | .le => 19
  | .gt => 20
  | .ge => 21
  | .eq => 22
  | .ne => 23

/-- The comparison that holds exactly where this one fails. -/
def negated : Relation → Relation
  | .lt => .ge
  | .le => .gt
  | .gt => .le
  | .ge => .lt
  | .eq => .ne
  | .ne => .eq

/-- The comparison with its sides exchanged. -/
def reversed : Relation → Relation
  | .lt => .gt
  | .le => .ge
  | .gt => .lt
  | .ge => .le
  | .eq => .eq
  | .ne => .ne

theorem mem_all (r : Relation) : r ∈ all := by cases r <;> simp [all]

@[simp] theorem negated_negated (r : Relation) : r.negated.negated = r := by cases r <;> rfl

@[simp] theorem reversed_reversed (r : Relation) : r.reversed.reversed = r := by cases r <;> rfl

end Relation

end Fluxion
