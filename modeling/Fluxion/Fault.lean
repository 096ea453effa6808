/-
What can go wrong, as causes. A cause carries the data it is about (the
tree without a value, the name without a binding), and `message?` is the
one place that words it; a cause without a message is told apart by its
kind alone.

`Fault.declines` marks the causes that an attempted integral may answer
with "does not apply": no antiderivative was found, or a value that was
needed is undefined. Every other cause ends the whole computation.
-/
import Fluxion.Tree.Printer

namespace Fluxion

/-- The four constructors that refuse an operand which is not a tree. -/
inductive Slot where
  | binary
  | unary
  | comparison
  | conditional
deriving DecidableEq

inductive Fault (α : Type) where
  /-- Evaluation reached a variable that has no binding. -/
  | unbound (name : String)
  /-- The value of the tree is not finite at the given bindings. -/
  | undefined (tree : Tree α)
  /-- Two arrays have shapes that do not broadcast together. -/
  | shapes
  /-- A literal must be a finite number. -/
  | notFinite (value : α)
  /-- No strategy found an antiderivative. -/
  | unsupported (tree : Tree α) (wrt : String)
  /-- An integral was nested deeper than the limit. -/
  | tooDeep (limit : String) (tree : Tree α) (wrt : String)
  /-- The symbol names no operator of that arity. -/
  | unknownOperator (slot : Slot) (symbol : String)
  | notTree (slot : Slot)
  | emptyName
  | truthValue
  | notPromotable (type : String)
  | notVariable (type : String)
  | notDifferentiable (type : String)
  /-- A node's field cannot be assigned. -/
  | reassigned (type field : String)
  /-- A node's field cannot be removed. -/
  | deleted (type field : String)
  | noField
  /-- A node needs more children than were given. -/
  | missingChild
  | depthNotPositive
  | tooFewSamples
  | stepNotPositive
  | negativeOrder
  | unknownDirection (text : String)
  | unknownTraversal (text : String)
  | emptyText
  | malformedText
  | noTreeForm
  | notRealConstant
  | noDefaultBranch
  | unknownTransform (name : String)
  | unreadableNumber
  /-- A value that is neither a number nor the text of one. -/
  | notNumeric
  | integerTooLarge
  /-- A comparison was used as a number, or a number as a condition. -/
  | mixedLogic
  /-- A comparison was given to a function, or asked for an algebraic part. -/
  | noAlgebra
  | argumentCount
  | zeroDivision
  /-- A compiled function uses a name that is no argument. -/
  | unknownName
  /-- A closing bracket without its opening one. -/
  | unbalanced
  /-- An object that is no mathematical value. -/
  | notMathematical
  | missingItem
  | missingKey
  /-- An argument at which a function has no value. -/
  | outsideDomain
  | noMethod

namespace Slot

/-- What a refused operand is told. -/
def refusal : Slot → String
  | .binary => "Binary operands must be expression nodes"
  | .unary => "Unary operand must be an expression node"
  | .comparison => "Comparison operands must be expression nodes"
  | .conditional => "Conditional parts must be expression nodes"

def word : Slot → String
  | .binary => "binary"
  | .unary => "unary"
  | .comparison => "comparison"
  | .conditional => "conditional"

end Slot

namespace Fault

variable {α : Type}

/-- The causes that an attempted sub-integral treats as "does not apply". -/
def declines : Fault α → Bool
  | .unbound _ | .undefined _ | .unsupported _ _ | .tooDeep _ _ _ => true
  | _ => false

/-- The causes by which a value fails to exist. -/
def noValue : Fault α → Bool
  | .unbound _ | .undefined _ => true
  | _ => false

variable [Scalar α] [Numeral α]

/-- The wording of a cause. -/
def message? : Fault α → Option String
  | .unbound x => some ("Variable " ++ x ++ " not found in evaluation context")
  | .undefined t => some ("Expression " ++ t.text ++ " is undefined for the given bindings")
  | .notFinite a => some ("Constant must be finite, got " ++ Numeral.text a)
  | .unsupported t _ =>
    some ("Cannot symbolically integrate: " ++ t.text ++
      "\nConsider using numerical integration instead.")
  | .tooDeep limit t _ =>
    some ("Integration depth limit (" ++ limit ++ ") reached for: " ++ t.text)
  | .unknownOperator slot s => some ("Unknown " ++ slot.word ++ " operator: " ++ s)
  | .notTree slot => some slot.refusal
  | .emptyName => some "Variable name must be a non-empty string"
  | .truthValue => some "Booleans cannot be used as expression values"
  | .notPromotable type =>
    some ("Cannot convert value of type " ++ type ++ " to an expression node")
  | .notVariable type => some ("Expected a variable name or VariableNode, got " ++ type)
  | .notDifferentiable type => some ("Cannot differentiate node of type " ++ type)
  | .reassigned type field => some (type ++ " is immutable; cannot reassign '" ++ field ++ "'")
  | .deleted type field => some (type ++ " is immutable; cannot delete '" ++ field ++ "'")
  | .depthNotPositive => some "max_depth must be positive"
  | .tooFewSamples => some "n_samples must be at least 2"
  | .stepNotPositive => some "step must be positive"
  | .negativeOrder => some "Order must be non-negative"
  | .unknownDirection s => some ("Invalid direction: " ++ s)
  | .unknownTraversal s => some ("Invalid traversal_order: " ++ s)
  | .emptyText => some "Cannot parse an empty expression"
  | .malformedText => some "Cannot parse expression"
  | .noTreeForm => some "Unsupported SymPy construct"
  | .notRealConstant => some "Non-finite or complex constant"
  | .noDefaultBranch => some "Piecewise without a default branch"
  | .unknownTransform s => some ("Unknown SymPy simplification strategy: " ++ s)
  | .shapes | .noField | .missingChild | .unreadableNumber | .notNumeric | .integerTooLarge
  | .mixedLogic | .noAlgebra | .argumentCount | .zeroDivision | .unknownName | .unbalanced
  | .notMathematical | .missingItem | .missingKey | .outsideDomain | .noMethod => none

end Fault

namespace Tree

variable {α : Type} [Scalar α]

/-- A literal node, refused unless its value is finite. -/
def literal (a : α) : Except (Fault α) (Tree α) :=
  if Scalar.isFinite a then .ok (.const a) else .error (.notFinite a)

/-- A variable node, refused unless its name has a character. -/
def named (x : String) : Except (Fault α) (Tree α) :=
  if x == "" then .error .emptyName else .ok (.var x)

end Tree

end Fluxion
