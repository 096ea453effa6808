/-
What a caller may hand over where an expression, a variable or a number is
wanted: a tree, a number with or without a fractional part, a text, a
truth value, or nothing. `promote` makes a tree of it, `variableName` a
name and `number` a number; each refuses what does not fit, naming the
type of what it was given.
-/
import Fluxion.Fault
import Fluxion.Tree.Equality

namespace Fluxion

inductive Operand (α : Type) where
  | tree (t : Tree α)
  | whole (n : Int)
  | real (a : α)
  | text (s : String)
  | truth (b : Bool)
  | nothing

namespace Operand

variable {α : Type}

def typeName : Operand α → String
  | .tree t => t.kind.title
  | .whole _ => "int"
  | .real _ => "float"
  | .text _ => "str"
  | .truth _ => "bool"
  | .nothing => "NoneType"

/-- The name of a variable: a text that is not empty, or a variable node. -/
def variableName : Operand α → Except (Fault α) String
  | .tree (.var x) => .ok x
  | .text s => if s == "" then .error (.notVariable "str") else .ok s
  | o => .error (.notVariable o.typeName)

/-- The tree itself, where only a tree will do in a node of this arity. -/
def expect (slot : Slot) : Operand α → Except (Fault α) (Tree α)
  | .tree t => .ok t
  | _ => .error (.notTree slot)

def named [Scalar α] : Operand α → Except (Fault α) (Tree α)
  | .text s => Tree.named s
  | _ => .error .emptyName

variable [Scalar α]

/-- An integer as a number; it has to be in range. -/
def ofInteger (n : Int) : Except (Fault α) α :=
  let a : α := Scalar.decimal n 0
  if Scalar.isFinite a then .ok a else .error .integerTooLarge

/-- The tree that a value stands for: a text is a variable and a number a
literal. A truth value is refused, since it is not meant as a number. -/
def promote : Operand α → Except (Fault α) (Tree α)
  | .tree t => .ok t
  | .text s => Tree.named s
  | .truth _ => .error .truthValue
  | .whole n => ofInteger n >>= Tree.literal
  | .real a => Tree.literal a
  | .nothing => .error (.notPromotable "NoneType")

variable [Numeral α]

/-- The number that a value is or spells; a truth value counts as one or
zero. -/
def number : Operand α → Except (Fault α) α
  | .whole n => ofInteger n
  | .real a => .ok a
  | .truth b => .ok (Scalar.indicator b)
  | .text s =>
    match Numeral.read? s with
    | some a => .ok a
    | none => .error .unreadableNumber
  | .tree _ | .nothing => .error .notNumeric

/-- The number that a value binds a variable to; nothing at all is read as
no number. -/
def cell : Operand α → Except (Fault α) α
  | .nothing => .ok (Scalar.div Scalar.zero Scalar.zero)
  | o => o.number

/-- Whether a value counts as true: all do but zero, the empty text and
nothing. -/
def isTrue : Operand α → Bool
  | .tree _ => true
  | .whole n => n != 0
  | .real a => !Scalar.eq a Scalar.zero
  | .text s => s != ""
  | .truth b => b
  | .nothing => false

/-- Whether two values are the same key of a table: trees and texts among
themselves, and numbers and truth values by their value. -/
def sameKey : Operand α → Operand α → Bool
  | .tree t, .tree u => t.eq u
  | .text s, .text r => s == r
  | .nothing, .nothing => true
  | .whole m, .whole n => m == n
  | .tree _, _ | .text _, _ | .nothing, _ | _, .tree _ | _, .text _ | _, .nothing => false
  | a, b =>
    match a.number, b.number with
    | .ok x, .ok y => Scalar.eq x y
    | _, _ => false

def spelled : Operand α → String
  | .tree t => t.text
  | .whole n => n.repr
  | .real a => Numeral.plain a
  | .text s => s
  | .truth b => if b then "True" else "False"
  | .nothing => "None"

/-- A literal node made from whatever number the value is or spells. -/
def literal (o : Operand α) : Except (Fault α) (Tree α) :=
  o.number >>= Tree.literal

end Operand

end Fluxion
