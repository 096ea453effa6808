/-
The numbers of algebraic forms: exact rationals, floating point numbers,
the two signed infinities, and not-a-number. Exact numbers stay exact
among themselves and become floating point where they meet one; a floating
point result of zero is the exact zero.
-/
import Fluxion.Algebra.Binary

namespace Fluxion.Algebra

inductive Number where
  | exact (r : Rat)
  | approximate (x : Binary)
  | infinite (negative : Bool)
  | undefined
deriving DecidableEq

namespace Number

def ofInt (n : Int) : Number := .exact (Rat.ofInt n)
def ratio (n : Int) (d : Nat) : Number := .exact (mkRat n d)
def zero : Number := ofInt 0
def one : Number := ofInt 1
def minusOne : Number := ofInt (-1)
def half : Number := ratio 1 2

/-- A floating point result, zero being exact. -/
def float (x : Binary) : Number := if x.isZero then zero else .approximate x

/-- The bits of a floating point number; an exact one asks for none. -/
def precision : Number → Nat
  | .approximate x => x.precision
  | _ => 0

/-- The floating point number next to a number, at a precision where it
has none of its own. -/
def toBinary (p : Nat) : Number → Binary
  | .exact r => .ofRat p r
  | .approximate x => x
  | _ => .zero

/-- An operation in floating point, at the finer precision of two
operands. -/
def inBinary {β : Type} (op : Binary → Binary → β) (a b : Number) : β :=
  let p := Binary.finer a.precision b.precision
  op (a.toBinary p) (b.toBinary p)

def isZero : Number → Bool
  | .exact r => r.num == 0
  | .approximate x => x.isZero
  | _ => false

def isNegative : Number → Bool
  | .exact r => decide (r.num < 0)
  | .approximate x => x.isNegative
  | .infinite negative => negative
  | .undefined => false

def isPositive : Number → Bool
  | .exact r => decide (0 < r.num)
  | .approximate x => x.isPositive
  | .infinite negative => !negative
  | .undefined => false

def isExact : Number → Bool
  | .exact _ => true
  | _ => false

def isFinite : Number → Bool
  | .exact _ | .approximate _ => true
  | _ => false

/-- The integer that an exact number is. -/
def int? : Number → Option Int
  | .exact r => if r.den == 1 then some r.num else none
  | _ => none

def neg : Number → Number
  | .exact r => .exact (Rat.neg r)
  | .approximate x => .approximate x.neg
  | .infinite negative => .infinite !negative
  | .undefined => .undefined

def abs (a : Number) : Number := if a.isNegative then a.neg else a

def add : Number → Number → Number
  | .undefined, _ | _, .undefined => .undefined
  | .infinite a, .infinite b => if a == b then .infinite a else .undefined
  | .infinite a, _ | _, .infinite a => .infinite a
  | .exact a, .exact b => .exact (Rat.add a b)
  | a, b => float (inBinary Binary.add a b)

def sub (a b : Number) : Number := add a b.neg

def mul : Number → Number → Number
  | .undefined, _ | _, .undefined => .undefined
  | .infinite a, b =>
    if b.isZero then .undefined else .infinite (a != b.isNegative)
  | a, .infinite b => if a.isZero then .undefined else .infinite (a.isNegative != b)
  | .exact a, .exact b => .exact (Rat.mul a b)
  | a, b => float (inBinary Binary.mul a b)

/-- The quotient by a finite number that is not zero. -/
def div : Number → Number → Number
  | .undefined, _ | _, .undefined => .undefined
  | .exact a, .exact b => .exact (Rat.div a b)
  | .infinite a, b => .infinite (a != b.isNegative)
  | _, .infinite _ => zero
  | a, b => float (inBinary Binary.div a b)

/-- The order of numbers that are not undefined. -/
def lt : Number → Number → Bool
  | .exact a, .exact b => decide ((Rat.sub a b).num < 0)
  | .infinite a, .infinite b => a && !b
  | .infinite a, _ => a
  | _, .infinite b => !b
  | .undefined, _ | _, .undefined => false
  | a, b => inBinary Binary.lt a b

def toFloat : Number → Float
  | .exact r => Double.ofRatio (decide (r.num < 0)) r.num.natAbs r.den
  | .approximate x => x.toFloat
  | .infinite negative => if negative then -(1.0 / 0.0) else 1.0 / 0.0
  | .undefined => 0.0 / 0.0

/-- The remainder by a positive exact number, not negative. -/
def modulo (a b : Rat) : Rat := Rat.sub a (Rat.mul b (Rat.ofInt (Rat.div a b).floor))

end Number

end Fluxion.Algebra
