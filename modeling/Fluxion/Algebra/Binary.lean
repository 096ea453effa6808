/-
Floating point with an exponent without bounds: `m · 2^q` with `m` odd, or
zero, and the number of significant bits that it keeps. Every operation is
its exact result rounded to nearest at the finer precision of its two
operands, a tie going to the even neighbour. Where a function is not
rational, it is computed in double precision and then rounded.
-/
import Fluxion.Double

namespace Fluxion.Algebra

structure Binary where
  m : Int
  q : Int
  /-- The number of significant bits. -/
  precision : Nat
deriving DecidableEq

namespace Binary

def double : Nat := 53

/-- The bits that hold a number of decimal digits, one digit to spare. -/
def bitsFor (digits : Nat) : Nat :=
  Double.roundDiv ((digits + 1) * 33219280948873626) 10000000000000000

def digitsFor (bits : Nat) : Nat :=
  let d := Double.roundDiv (bits * 10000000000000000) 33219280948873626 - 1
  if d == 0 then 1 else d

def finer (p p' : Nat) : Nat := if p < p' then p' else p

def zero : Binary := ⟨0, 0, double⟩

def bits (n : Nat) : Nat := if n == 0 then 0 else n.log2 + 1

/-- Moves factors of two from the significand to the exponent; `fuel` only
has to reach the number of bits. -/
def normalize : (fuel : Nat) → Nat → Int → Nat × Int
  | 0, n, q => (n, q)
  | fuel + 1, n, q => if n % 2 == 0 then normalize fuel (n / 2) (q + 1) else (n, q)

def signed (negative : Bool) (n : Nat) : Int := if negative then -(n : Int) else n

/-- `± n · 2^q` rounded to `p` bits. -/
def round (p : Nat) (negative : Bool) (n : Nat) (q : Int) : Binary :=
  if n == 0 then ⟨0, 0, p⟩
  else
    let extra := bits n - p
    let r := Double.roundDiv n (Nat.pow 2 extra)
    let d := normalize (p + 1) r (q + extra)
    ⟨signed negative d.1, d.2, p⟩

/-- `± num / den · 2^q` rounded to `p` bits; a remainder is kept as one low
bit, so that it cannot be taken for a tie. -/
def quotient (p : Nat) (negative : Bool) (num den : Nat) (q : Int) : Binary :=
  let shift := p + 7 + bits den - bits num
  let n := num * Nat.pow 2 shift
  round p negative (2 * (n / den) + (if n % den == 0 then 0 else 1)) (q - shift - 1)

def ofRat (p : Nat) (r : Rat) : Binary := quotient p (decide (r.num < 0)) r.num.natAbs r.den 0

def rounded (p : Nat) (x : Binary) : Binary := round p (decide (x.m < 0)) x.m.natAbs x.q

def toRat (x : Binary) : Rat :=
  if 0 ≤ x.q then Rat.ofInt (x.m * (Nat.pow 2 x.q.toNat : Nat))
  else mkRat x.m (Nat.pow 2 (-x.q).toNat)

def ofFloat (x : Float) : Binary :=
  match Double.parts x with
  | .finite negative m q => round double negative m q
  | _ => zero

/-- The nearest double; beyond the range an infinity. -/
def toFloat (x : Binary) : Float :=
  let negative := decide (x.m < 0)
  if x.m == 0 then 0.0
  else if 1100 < x.q then Double.make negative (Nat.pow 2 52) 972
  else if x.q < -1300 then Double.make negative 0 0
  else if 0 ≤ x.q then Double.ofRatio negative (x.m.natAbs * Nat.pow 2 x.q.toNat) 1
  else Double.ofRatio negative x.m.natAbs (Nat.pow 2 (-x.q).toNat)

def neg (x : Binary) : Binary := ⟨-x.m, x.q, x.precision⟩

def mul (x y : Binary) : Binary :=
  round (finer x.precision y.precision) (decide ((x.m < 0) ≠ (y.m < 0)))
    (x.m.natAbs * y.m.natAbs) (x.q + y.q)

def add (x y : Binary) : Binary :=
  let q := if x.q < y.q then x.q else y.q
  let s : Int := x.m * (Nat.pow 2 (x.q - q).toNat : Nat) + y.m * (Nat.pow 2 (y.q - q).toNat : Nat)
  round (finer x.precision y.precision) (decide (s < 0)) s.natAbs q

/-- The quotient by a number that is not zero. -/
def div (x y : Binary) : Binary :=
  quotient (finer x.precision y.precision) (decide ((x.m < 0) ≠ (y.m < 0)))
    x.m.natAbs y.m.natAbs (x.q - y.q)

/-- The power with an integer exponent of a number that is not zero. -/
def powInt (x : Binary) (n : Int) : Binary :=
  let k := n.natAbs
  let negative := decide (x.m < 0) && k % 2 == 1
  let m := Nat.pow x.m.natAbs k
  if 0 ≤ n then round x.precision negative m (x.q * (k : Int))
  else quotient x.precision negative 1 m (-(x.q * (k : Int)))

def isZero (x : Binary) : Bool := x.m == 0
def isNegative (x : Binary) : Bool := decide (x.m < 0)
def isPositive (x : Binary) : Bool := decide (0 < x.m)
def isInteger (x : Binary) : Bool := x.m == 0 || decide (0 ≤ x.q)
def abs (x : Binary) : Binary := ⟨x.m.natAbs, x.q, x.precision⟩
def lt (x y : Binary) : Bool := (add x (neg y)).isNegative

/-- `2^n` times a double. -/
def scaled (x : Float) (n : Int) : Binary :=
  let y := ofFloat x
  if y.isZero then y else ⟨y.m, y.q + n, y.precision⟩

/-- The exponential, also beyond the range of doubles. -/
def exp (x : Binary) : Binary :=
  let y := x.toFloat
  rounded x.precision
    (if y.abs < 700.0 then ofFloat y.exp
    else
      let k := (y / 0.6931471805599453).floor
      let rest := y - k * 0.6931471805599453
      scaled rest.exp (Double.toInt k))

/-- The power with any exponent of a positive number. -/
def pow (x y : Binary) : Binary :=
  let r := Float.pow x.toFloat y.toFloat
  rounded (finer x.precision y.precision)
    (if r.isFinite && r != 0.0 then ofFloat r else exp (mul y (ofFloat x.toFloat.log)))

end Binary

end Fluxion.Algebra
