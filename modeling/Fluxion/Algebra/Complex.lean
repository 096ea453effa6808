/-
Complex numbers in double precision, with the principal values of powers,
logarithms and inverse functions.
-/

namespace Fluxion.Algebra

structure Complex where
  re : Float
  im : Float

namespace Complex

def ofReal (x : Float) : Complex := ⟨x, 0.0⟩
def zero : Complex := ofReal 0.0
def one : Complex := ofReal 1.0
def i : Complex := ⟨0.0, 1.0⟩
def pi : Float := 3.141592653589793

def add (a b : Complex) : Complex := ⟨a.re + b.re, a.im + b.im⟩
def neg (a : Complex) : Complex := ⟨-a.re, -a.im⟩
def sub (a b : Complex) : Complex := a.add b.neg
def mul (a b : Complex) : Complex := ⟨a.re * b.re - a.im * b.im, a.re * b.im + a.im * b.re⟩
def scale (k : Float) (a : Complex) : Complex := ⟨k * a.re, k * a.im⟩
def norm (a : Complex) : Float := (a.re * a.re + a.im * a.im).sqrt

def div (a b : Complex) : Complex :=
  if b.im == 0.0 then ⟨a.re / b.re, a.im / b.re⟩
  else
    let d := b.re * b.re + b.im * b.im
    ⟨(a.re * b.re + a.im * b.im) / d, (a.im * b.re - a.re * b.im) / d⟩

def isFinite (a : Complex) : Bool := a.re.isFinite && a.im.isFinite

/-- Real as far as rounding can tell. -/
def isReal (a : Complex) : Bool := a.im.abs ≤ 1e-13 * (1.0 + a.re.abs)

def exp (a : Complex) : Complex :=
  if a.im == 0.0 then ofReal a.re.exp
  else
    let r := a.re.exp
    ⟨r * a.im.cos, r * a.im.sin⟩

def log (a : Complex) : Complex :=
  if a.im == 0.0 && 0.0 < a.re then ofReal a.re.log
  else ⟨a.norm.log, Float.atan2 a.im a.re⟩

/-- The integer power by repeated squaring. -/
def powNat (a : Complex) : (fuel n : Nat) → Complex
  | 0, _ => one
  | fuel + 1, n =>
    if n == 0 then one
    else
      let h := powNat a fuel (n / 2)
      let s := h.mul h
      if n % 2 == 0 then s else s.mul a

def pow (a b : Complex) : Complex :=
  if b.im == 0.0 && b.re == 0.0 then one
  else if a.im == 0.0 && b.im == 0.0 && (0.0 ≤ a.re || b.re.floor == b.re) then
    ofReal (Float.pow a.re b.re)
  else if a.re == 0.0 && a.im == 0.0 then zero
  else if b.im == 0.0 && b.re.floor == b.re && b.re.abs ≤ 64.0 then
    let p := powNat a 8 b.re.abs.toUInt64.toNat
    if b.re < 0.0 then one.div p else p
  else exp (b.mul a.log)

def sqrt (a : Complex) : Complex := pow a (ofReal 0.5)

def sin (a : Complex) : Complex :=
  if a.im == 0.0 then ofReal a.re.sin
  else ⟨a.re.sin * a.im.cosh, a.re.cos * a.im.sinh⟩

def cos (a : Complex) : Complex :=
  if a.im == 0.0 then ofReal a.re.cos
  else ⟨a.re.cos * a.im.cosh, -(a.re.sin * a.im.sinh)⟩

/-- `-i log(i a + √(1 - a²))`. -/
def asin (a : Complex) : Complex :=
  if a.im == 0.0 && a.re.abs ≤ 1.0 then ofReal a.re.asin
  else
    let w := ((i.mul a).add (sqrt (one.sub (a.mul a)))).log
    ⟨w.im, -w.re⟩

def acos (a : Complex) : Complex :=
  if a.im == 0.0 && a.re.abs ≤ 1.0 then ofReal a.re.acos
  else (ofReal (pi / 2.0)).sub (asin a)

/-- `(i/2) (log(1 - i a) - log(1 + i a))`. -/
def atan (a : Complex) : Complex :=
  if a.im == 0.0 then ofReal a.re.atan
  else
    let ia := i.mul a
    let w := (one.sub ia).log.sub (one.add ia).log
    scale 0.5 ⟨-w.im, w.re⟩

end Complex

end Fluxion.Algebra
