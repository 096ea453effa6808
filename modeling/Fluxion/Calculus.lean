/-
The operations of calculus as they are called: expression, variable and
numbers come as operands and are read in a fixed order, so that of several
faults the first is reported.
-/
import Fluxion.Definite
import Fluxion.Limit
import Fluxion.Operand
import Fluxion.Taylor

namespace Fluxion.Calculus

variable {α : Type} [Scalar α] [Numeral α]

/-- The derivative of something that has to be a tree already. -/
def derivative (expr wrt : Operand α) : Except (Fault α) (Tree α) := do
  let v ← wrt.variableName
  match expr with
  | .tree t => return t.derivative v
  | o => throw (.notDifferentiable o.typeName)

/-- The derivative, every other variable held constant. -/
def partialDerivative (expr wrt : Operand α) : Except (Fault α) (Tree α) := do
  let t ← expr.promote
  derivative (.tree t) wrt

def indefiniteIntegral (expr wrt : Operand α) : Except (Fault α) (Tree α) := do
  let t ← expr.promote
  let v ← wrt.variableName
  t.antiderivative v

/-- The integral from `a` to `b`; the bounds are read only when there is an
antiderivative, each just before its value is taken. -/
def definiteIntegral (expr wrt a b : Operand α) : Except (Fault α) α := do
  let t ← expr.promote
  let v ← wrt.variableName
  let F ← t.antiderivative v
  let upper ← F.evaluateAt v (← b.cell)
  let lower ← F.evaluateAt v (← a.cell)
  return Scalar.sub upper lower

/-- Whether a number is negative; nothing but a number can be asked. -/
def isNegative : Operand α → Except (Fault α) Bool
  | .whole n => .ok (n < 0)
  | .truth _ => .ok false
  | .real a => .ok (Scalar.lt a Scalar.zero)
  | _ => .error .notNumeric

/-- How many orders are wanted; the number has to be whole. -/
def count : Operand α → Except (Fault α) Nat
  | .whole n => .ok n.toNat
  | .truth b => .ok (if b then 1 else 0)
  | _ => .error .notNumeric

/-- The Taylor polynomial about `point`, which has to be finite. -/
def series (expr wrt point order : Operand α) : Except (Fault α) (Expansion α) := do
  if ← isNegative order then throw .negativeOrder
  let v ← wrt.variableName
  let a ← point.number
  let _ ← Taylor.shift v a
  let t ← expr.promote
  Taylor.expand t v a (← count order)

/-- The limit at a point from the side that `direction` names. -/
def limit (expr wrt point : Operand α) (direction : String) : Except (Fault α) α := do
  match Direction.ofText? direction with
  | none => throw (.unknownDirection direction)
  | some d =>
    let t ← expr.promote
    let v ← wrt.variableName
    let a ← point.number
    return Limit.limit t v a d

end Fluxion.Calculus
