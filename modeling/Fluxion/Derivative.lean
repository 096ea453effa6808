/-
Differentiation with respect to one variable, every other variable held
constant. One rule per kind of node, applied by recursion; nothing is
simplified. A comparison is constant between its jumps, so its derivative
is zero, and a conditional is differentiated branch by branch.
-/
import Fluxion.Tree

namespace Fluxion.Tree

variable {α : Type} [Scalar α]

def squared (u : Tree α) : Tree α := .binary .pow u two

/-- The derivative of the outer function at `u`, before the factor from
the chain rule. Negation is linear and has the derivative minus one. -/
def outerDerivative (op : UnaryOp) (u : Tree α) : Tree α :=
  match op with
  | .neg => .unary .neg one
  | .sin => .unary .cos u
  | .cos => .unary .neg (.unary .sin u)
  | .tan => squared (.unary .sec u)
  | .sec => .binary .mul (.unary .sec u) (.unary .tan u)
  | .csc => .unary .neg (.binary .mul (.unary .csc u) (.unary .cot u))
  | .cot => .unary .neg (squared (.unary .csc u))
  | .exp => .unary .exp u
  | .ln => .binary .div one u
  | .sqrt => .binary .div one (.binary .mul two (.unary .sqrt u))
  | .asin => .binary .div one (.unary .sqrt (.binary .sub one (squared u)))
  | .acos => .unary .neg (.binary .div one (.unary .sqrt (.binary .sub one (squared u))))
  | .atan => .binary .div one (.binary .add one (squared u))

/-- An exponent lowered by one, at once if it is a literal. -/
def lowered : Tree α → Tree α
  | .const a => .const (Scalar.sub a Scalar.one)
  | t => .binary .sub t one

/-- The derivative of `f ^ g` from those of `f` and `g`: the power rule
where the exponent is free of `v`, the exponential rule where the base is,
and logarithmic differentiation otherwise. -/
def powerRule (v : String) (f g f' g' : Tree α) : Tree α :=
  if !g.mentions v then .binary .mul (.binary .mul g (.binary .pow f (lowered g))) f'
  else if !f.mentions v then
    .binary .mul (.binary .pow f g) (.binary .mul (.unary .ln f) g')
  else
    .binary .mul (.binary .pow f g)
      (.binary .add (.binary .mul g' (.unary .ln f)) (.binary .div (.binary .mul g f') f))

def binaryRule (v : String) (op : BinaryOp) (f g f' g' : Tree α) : Tree α :=
  match op with
  | .add => .binary .add f' g'
  | .sub => .binary .sub f' g'
  | .mul => .binary .add (.binary .mul f' g) (.binary .mul f g')
  | .div =>
    .binary .div (.binary .sub (.binary .mul f' g) (.binary .mul f g')) (.binary .mul g g)
  | .pow => powerRule v f g f' g'

def derivative (v : String) : Tree α → Tree α
  | .const _ => zero
  | .var x => if x == v then one else zero
  | .binary op f g => binaryRule v op f g (derivative v f) (derivative v g)
  | .unary .neg u => .unary .neg (derivative v u)
  | .unary op u => .binary .mul (outerDerivative op u) (derivative v u)
  | .branch c t f => .branch c (derivative v t) (derivative v f)
  | .relate _ _ _ => zero

/-- The derivative taken `n` times, simplified after each when asked. -/
def derivatives (simplify : Tree α → Tree α) (v : String) : Nat → Tree α → Tree α
  | 0, t => t
  | n + 1, t => derivatives simplify v n (simplify (derivative v t))

end Fluxion.Tree
