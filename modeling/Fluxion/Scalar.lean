/-
The numbers an expression computes with, given by what the rest of the
library needs of them: literals, the kernels of the operators, the
comparisons, and which values are finite or integral. Nothing is assumed
of the kernels, so everything built on `Scalar` holds whatever they
compute; double precision is one instance and exact arithmetic another.
-/
import Fluxion.Operator

namespace Fluxion

/-- Numbers with a kernel for every operator. A kernel is total: an
undefined result is a value that is not `isFinite`. -/
class Scalar (α : Type) where
  /-- The number `n`. -/
  ofNat : Nat → α
  /-- The number `m · 10^e`, rounded to the type. -/
  decimal : Int → Int → α
  binary : BinaryOp → α → α → α
  unary : UnaryOp → α → α
  holds : Relation → α → α → Bool
  isFinite : α → Bool
  isInteger : α → Bool
  /-- The nearest integer, a tie going to the even one. -/
  round : α → α
  /-- A fingerprint that equal numbers share. -/
  digest : α → UInt64

namespace Scalar

variable {α : Type} [Scalar α]

def zero : α := ofNat 0
def one : α := ofNat 1
def two : α := ofNat 2

def add (a b : α) : α := binary .add a b
def sub (a b : α) : α := binary .sub a b
def mul (a b : α) : α := binary .mul a b
def div (a b : α) : α := binary .div a b
def neg (a : α) : α := unary .neg a

/-- Numeric equality, under which the two zeros of floating point agree. -/
def eq (a b : α) : Bool := holds .eq a b
def lt (a b : α) : Bool := holds .lt a b
def le (a b : α) : Bool := holds .le a b
def gt (a b : α) : Bool := holds .gt a b
def ge (a b : α) : Bool := holds .ge a b

def abs (a : α) : α := if lt a zero then neg a else a

/-- The larger of two numbers; the first unless the second exceeds it. -/
def max (a b : α) : α := if gt b a then b else a

/-- One where a condition holds and zero where it fails. -/
def indicator (b : Bool) : α := if b then one else zero

/-- The value of an operation when it is finite. -/
def finite? (a : α) : Option α := if isFinite a then some a else none

end Scalar

end Fluxion
