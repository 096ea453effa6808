/-
Working on one expression step by step. A step reads the expression, or
puts another in its place; a step that fails leaves it as it was. Nodes
themselves never change: to assign or remove a field of one is refused, but
for the notes that a node keeps of what was computed of it.
-/
import Fluxion.Binding
import Fluxion.Calculus
import Fluxion.Text.Quoted
import Fluxion.Tree.Substitution

namespace Fluxion

/-! ## Fields of nodes -/

namespace Tree

variable {α : Type}

/-- What every node offers by name. -/
def commonFields : List String :=
  ["evaluate", "children", "with_children", "size", "depth", "variable_names",
    "get_variable_terms", "contains_variable", "substitute", "differentiate", "integrate",
    "simplify", "to_string", "to_sympy"]

/-- What every node has for its own use: how it is computed, written and
compared, and what its operators and its class stand on. -/
def innerFields : List String :=
  ["_evaluate", "_render", "_compute_hash", "_same_fields", "_abc_impl", "__abstractmethods__",
    "__add__", "__class__", "__delattr__", "__dir__", "__doc__", "__eq__", "__format__", "__ge__",
    "__getattribute__", "__getstate__", "__gt__", "__hash__", "__init__", "__init_subclass__",
    "__le__", "__lt__", "__module__", "__mul__", "__ne__", "__neg__", "__new__", "__pow__",
    "__radd__", "__reduce__", "__reduce_ex__", "__repr__", "__rmul__", "__rpow__", "__rsub__",
    "__rtruediv__", "__setattr__", "__sizeof__", "__slots__", "__str__", "__sub__",
    "__subclasshook__", "__truediv__"]

/-- The notes of a node, which may be assigned: its digest, size, names and
text, all of which follow from the node itself. -/
def notes : List String := ["_hash_cache", "_size_cache", "_variables_cache", "_string_cache"]

/-- What a node of this kind offers besides; a binary node also answers to
the names of a power's parts. -/
def Kind.fields : Kind → List String
  | .variable => ["name"]
  | .constant => ["value", "is_integer"]
  | .binary => ["operator", "left", "right", "base", "exponent"]
  | .unary => ["operator", "operand"]
  | .comparison => ["operator", "left", "right"]
  | .conditional => ["condition", "if_true", "if_false"]

/-- All fields of a node of this kind but the notes. -/
def Kind.allFields (k : Kind) : List String := commonFields ++ innerFields ++ k.fields

/-- The node after a field is assigned: a node is fixed, and has no fields
but its own. -/
def assign (t : Tree α) (field : String) : Except (Fault α) (Tree α) :=
  if notes.contains field then .ok t
  else if t.kind.allFields.contains field then .error (.reassigned t.kind.title field)
  else .error .noField

def removeFault (t : Tree α) (field : String) : Fault α := .deleted t.kind.title field

end Tree

/-! ## Steps -/

namespace Session

variable {α : Type} [Scalar α] [Numeral α]

inductive Step (α : Type) where
  | differentiate (wrt : Operand α)
  | integrate (wrt : Operand α)
  | simplify
  | substitute (old new : Operand α)
  | replace (expr : Operand α)
  | assign (field : String)
  | remove (field : String)
  | evaluate (bindings named : List (Binding α))
  | compare (other : Operand α)
  | inspect

inductive Outcome (α : Type) where
  /-- The expression that is held from now on. -/
  | now (t : Tree α)
  | measured (m : Measure α)
  | compared (equal sameDigest : Bool)
  | shown

/-- Every occurrence of `old` replaced, both given as operands. -/
def substituted (t : Tree α) (old new : Operand α) : Except (Fault α) (Tree α) := do
  let a ← old.promote
  let b ← new.promote
  return Tree.substitute a b t

def step (t : Tree α) : Step α → Except (Fault α) (Outcome α)
  | .differentiate v => .now <$> Calculus.derivative (.tree t) v
  | .integrate v => .now <$> Calculus.indefiniteIntegral (.tree t) v
  | .simplify => .ok (.now t.simplify)
  | .substitute old new => .now <$> substituted t old new
  | .replace e => .now <$> e.promote
  | .assign field => .now <$> t.assign field
  | .remove field => .error (t.removeFault field)
  | .evaluate bindings named => .measured <$> t.measureNamed bindings named
  | .compare e => do
    let u ← e.promote
    return .compared (t.eq u) (t.digest (.standard α) == u.digest (.standard α))
  | .inspect => .ok .shown

def next (t : Tree α) : Except (Fault α) (Outcome α) → Tree α
  | .ok (.now u) => u
  | _ => t

/-- The expression as an inspector shows it. -/
def shown (t : Tree α) : String := "Expression(" ++ Text.quoted t.text ++ ")"

end Session

end Fluxion
