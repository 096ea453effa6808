/-
The numeric value of a form in the complex plane, and what it says about a
form without symbols: whether it is real, positive or negative. Questions
about a form with symbols stay open, since a symbol may stand for any
complex number.
-/
import Fluxion.Algebra.Complex
import Fluxion.Algebra.Form

namespace Fluxion.Algebra.Form

def functionValue? (op : UnaryOp) (z : Complex) : Option Complex :=
  match op with
  | .neg => some z.neg
  | .sin => some z.sin
  | .cos => some z.cos
  | .tan => some (z.sin.div z.cos)
  | .sec => some (Complex.one.div z.cos)
  | .csc => some (Complex.one.div z.sin)
  | .cot => some (z.cos.div z.sin)
  | .exp => some z.exp
  | .ln => some z.log
  | .sqrt => some z.sqrt
  | .asin => some z.asin
  | .acos => some z.acos
  | .atan => some z.atan

mutual

/-- The value where every symbol is given by `env`. -/
def value? (env : String → Option Complex) : Form → Option Complex
  | .number a => if a.isFinite then some (.ofReal a.toFloat) else none
  | .constant c => some (.ofReal c.toFloat)
  | .imaginary => some .i
  | .symbol x => env x
  | .sum us => sumValue? env us
  | .product us => productValue? env us
  | .power b e => do
    let x ← value? env b
    let y ← value? env e
    return x.pow y
  | .call op u => do
    let z ← value? env u
    functionValue? op z
  | _ => none

def sumValue? (env : String → Option Complex) : List Form → Option Complex
  | [] => some .zero
  | u :: us => do
    let x ← value? env u
    let y ← sumValue? env us
    return x.add y

def productValue? (env : String → Option Complex) : List Form → Option Complex
  | [] => some .one
  | u :: us => do
    let x ← value? env u
    let y ← productValue? env us
    return x.mul y

end

/-- The value of a form without symbols. -/
def constantValue? (u : Form) : Option Complex := do
  let z ← value? (fun _ => none) u
  if z.isFinite then some z else none

/-- The value of a form without symbols that is real. -/
def realValue? (u : Form) : Option Float := do
  let z ← u.constantValue?
  if z.isReal then some z.re else none

/-- Whether the form is known to be real, known not to be, or neither. -/
def real? (u : Form) : Option Bool :=
  match u with
  | .number .undefined => none
  | .number _ => some true
  | .unsigned => some false
  | u => u.constantValue?.map Complex.isReal

def positive? (u : Form) : Option Bool :=
  match u with
  | .number .undefined => none
  | .number a => some a.isPositive
  | u => u.constantValue?.map fun z => z.isReal && decide (1e-14 < z.re)

def negative? (u : Form) : Option Bool :=
  match u with
  | .number .undefined => none
  | .number a => some a.isNegative
  | u => u.constantValue?.map fun z => z.isReal && decide (z.re < -1e-14)

/-- Known not to be negative. -/
def isNonnegative (u : Form) : Bool := u.real? == some true && u.negative? == some false

def isPositive (u : Form) : Bool := u.positive? == some true
def isNegative (u : Form) : Bool := u.negative? == some true
def isReal (u : Form) : Bool := u.real? == some true

def isZero : Form → Bool
  | .number a => a.isZero
  | _ => false

/-- Known to be infinite. -/
def isInfinite : Form → Bool
  | .number (.infinite _) | .unsigned => true
  | _ => false

def int? : Form → Option Int
  | .number a => a.int?
  | _ => none

def rat? : Form → Option Rat
  | .number (.exact r) => some r
  | _ => none

end Fluxion.Algebra.Form
