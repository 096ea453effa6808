/-
The shapes an integration strategy recognises: the variable itself, a
power of it with a constant exponent, a function of it, a factor that
integration by parts can take as the derivative part.
-/
import Fluxion.Evaluation
import Fluxion.Tree.Equality

namespace Fluxion.Tree

variable {α : Type}

def isVariable (v : String) : Tree α → Bool
  | .var x => x == v
  | _ => false

/-- `v ^ e` with `e` free of `v`. -/
def isPowerOf (v : String) : Tree α → Bool
  | .binary .pow b e => b.isVariable v && !e.mentions v
  | _ => false

/-- The function `op` of the bare variable. -/
def isFunctionOf (op : UnaryOp) (v : String) : Tree α → Bool
  | .unary o u => o == op && u.isVariable v
  | _ => false

/-- The functions that integration by parts integrates. -/
def integrableFactors : List UnaryOp := [.sin, .cos, .tan, .exp]

/-- One of those functions, of an argument that mentions `v`. -/
def isIntegrableFactor (v : String) : Tree α → Bool
  | .unary op u => integrableFactors.contains op && u.mentions v
  | _ => false

variable [Scalar α]

/-- The square of the function `op` of the bare variable. -/
def isSquaredFunctionOf (op : UnaryOp) (v : String) : Tree α → Bool
  | .binary .pow b e => e.eq two && b.isFunctionOf op v
  | _ => false

/-- `v`, or `v` to a positive integer literal. -/
def isPolynomialLike (v : String) : Tree α → Bool
  | .var x => x == v
  | .binary .pow b (.const a) =>
    b.isVariable v && (Scalar.gt a Scalar.zero && Scalar.isInteger a)
  | _ => false

/-- The value of a literal, or of a tree that needs no bindings. -/
def constantValue? : Tree α → Option α
  | .const a => some a
  | t =>
    match t.evaluate [] with
    | .ok a => some a
    | .error _ => none

end Fluxion.Tree
