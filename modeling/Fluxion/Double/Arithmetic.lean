/-
Double precision as the numbers of an expression. The kernels are the
machine's: undefined points come back as infinities or not-a-number, and
the secant, cosecant and cotangent are quotients of sine and cosine.
-/
import Fluxion.Decimal.Reader
import Fluxion.Tree.Printer

namespace Fluxion

namespace Double

def binary : BinaryOp → Float → Float → Float
  | .add, a, b => a + b
  | .sub, a, b => a - b
  | .mul, a, b => a * b
  | .div, a, b => a / b
  | .pow, a, b => Float.pow a b

def unary : UnaryOp → Float → Float
  | .neg, a => -a
  | .sin, a => a.sin
  | .cos, a => a.cos
  | .tan, a => a.tan
  | .sec, a => 1.0 / a.cos
  | .csc, a => 1.0 / a.sin
  | .cot, a => a.cos / a.sin
  | .exp, a => a.exp
  | .ln, a => a.log
  | .sqrt, a => a.sqrt
  | .asin, a => a.asin
  | .acos, a => a.acos
  | .atan, a => a.atan

def holds : Relation → Float → Float → Bool
  | .lt, a, b => a < b
  | .le, a, b => a ≤ b
  | .gt, a, b => b < a
  | .ge, a, b => b ≤ a
  | .eq, a, b => a == b
  | .ne, a, b => a != b

/-- The nearest integral double, ties to even; a zero has no sign. -/
def round (x : Float) : Float :=
  match toRatio? x with
  | some (negative, num, den) =>
    let n := roundDiv num den
    ofRatio (negative && n != 0) n 1
  | none => x

end Double

instance : Scalar Float where
  ofNat n := if n < 9007199254740992 then Float.ofNat n else Double.ofRatio false n 1
  decimal m e := Double.ofDecimal (decide (m < 0)) m.natAbs e
  binary := Double.binary
  unary := Double.unary
  holds := Double.holds
  isFinite := Float.isFinite
  isInteger := Double.isInteger
  round := Double.round
  digest x := (x + 0.0).toBits

instance : Numeral Float where
  text := Decimal.literalText
  plain := Decimal.plain
  read? := Decimal.read?

end Fluxion
