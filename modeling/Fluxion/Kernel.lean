/-
The kernels of the operators on arrays, chosen by symbol. A symbol that
names no operator of the arity gives no number in every cell, or a
comparison that holds in none.
-/
import Fluxion.Evaluation

namespace Fluxion.Kernel

variable {α : Type} [Scalar α]

/-- No number. -/
def undefined : α := Scalar.div Scalar.zero Scalar.zero

def binary (symbol : String) (a b : Grid α) : Except (Fault α) (Grid α) :=
  match BinaryOp.ofSymbol? symbol with
  | some op => Tree.orShapes (Grid.zipWith? (Scalar.binary op) a b)
  | none => .ok (a.map fun _ => undefined)

def unary (symbol : String) (a : Grid α) : Grid α :=
  match UnaryOp.ofSymbol? symbol with
  | some op => a.map (Scalar.unary op)
  | none => a.map fun _ => undefined

def comparison (symbol : String) (a b : Grid α) : Except (Fault α) (Grid Bool) :=
  match Relation.ofSymbol? symbol with
  | some rel => Tree.orShapes (Grid.zipWith? (Scalar.holds rel) a b)
  | none => .ok (a.map fun _ => false)

end Fluxion.Kernel
