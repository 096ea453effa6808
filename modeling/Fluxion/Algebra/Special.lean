/-
Special functions of one or two real arguments in double precision, good
to at least ten digits: the gamma function and its relatives, the error
functions, exponential and trigonometric integrals, the zeta function, the
product logarithm and complete elliptic integrals.

A function has no value where it has a pole or where its value is not
real.
-/
import Fluxion.Double
import Fluxion.Algebra.Complex

namespace Fluxion.Algebra.Special

def pi : Float := Complex.pi
def eulerGamma : Float := 0.5772156649015329

/-- The sum of `term 0`, `term 1`, … up to `term (n - 1)`. -/
def sumTo (term : Nat → Float) : Nat → Float
  | 0 => 0.0
  | n + 1 => sumTo term n + term n

def isWhole (x : Float) : Bool := x.floor == x

/-! ## The gamma function -/

def lanczos : List Float :=
  [676.5203681218851, -1259.1392167224028, 771.32342877765313, -176.61502916214059,
    12.507343278686905, -0.13857109526572012, 9.9843695780195716e-6, 1.5056327351493116e-7]

def lanczosSum (x : Float) : Float :=
  (lanczos.zipIdx.map fun p => p.1 / (x + Float.ofNat (p.2 + 1))).foldl (· + ·)
    0.99999999999980993

/-- The gamma function above a half. -/
def gammaUpper (x : Float) : Float :=
  let y := x - 1.0
  let t := y + 7.5
  let half := Float.pow t ((y + 0.5) / 2.0)
  (2.0 * pi).sqrt * half * (-t).exp * half * lanczosSum y

def gamma? (x : Float) : Option Float :=
  if x ≤ 0.0 && isWhole x then none
  else if x < 0.5 then some (pi / ((pi * x).sin * gammaUpper (1.0 - x)))
  else some (gammaUpper x)

/-- The logarithm of the gamma function at a positive argument. -/
def logGammaUpper (x : Float) : Float :=
  let y := x - 1.0
  let t := y + 7.5
  0.5 * (2.0 * pi).log + (y + 0.5) * t.log - t + (lanczosSum y).log

def logGamma? (x : Float) : Option Float :=
  if x ≤ 0.0 then none
  else if x < 0.5 then some ((pi / (pi * x).sin).log - logGammaUpper (1.0 - x))
  else some (logGammaUpper x)

/-- The derivative of the logarithm of the gamma function. -/
def digammaUpper (x : Float) : Float :=
  let y := x + 12.0
  let r := 1.0 / (y * y)
  let tail := r * (1.0 / 12.0 - r * (1.0 / 120.0 - r * (1.0 / 252.0 - r * (1.0 / 240.0 -
    r * (1.0 / 132.0)))))
  y.log - 0.5 / y - tail - sumTo (fun k => 1.0 / (x + Float.ofNat k)) 12

def digamma? (x : Float) : Option Float :=
  if x ≤ 0.0 && isWhole x then none
  else if x < 0.5 then some (digammaUpper (1.0 - x) - pi / (pi * x).tan)
  else some (digammaUpper x)

def trigammaUpper (x : Float) : Float :=
  let y := x + 12.0
  let r := 1.0 / (y * y)
  let tail := (1.0 / y) * (1.0 + r * (1.0 / 6.0 - r * (1.0 / 30.0 - r * (1.0 / 42.0 -
    r * (1.0 / 30.0)))))
  tail + 0.5 * r +
    sumTo (fun k => 1.0 / ((x + Float.ofNat k) * (x + Float.ofNat k))) 12

def trigamma? (x : Float) : Option Float :=
  if x ≤ 0.0 && isWhole x then none
  else if x < 0.5 then
    let s := pi / (pi * x).sin
    some (s * s - trigammaUpper (1.0 - x))
  else some (trigammaUpper x)

def beta? (x y : Float) : Option Float := do
  let a ← gamma? x
  let b ← gamma? y
  let c ← gamma? (x + y)
  some (a * b / c)

/-! ## Error functions -/

def erfSeries (x : Float) : Float :=
  let sum := (List.range 120).foldl
    (fun (acc : Float × Float) k =>
      (acc.1 + acc.2 / Float.ofNat (2 * k + 1), -acc.2 * x * x / Float.ofNat (k + 1)))
    (0.0, x)
  2.0 / pi.sqrt * sum.1

/-- The continued fraction of the complementary error function. -/
def erfcFraction (x : Float) : (k : Nat) → Float → Float
  | 0, f => f
  | k + 1, f => erfcFraction x k (x + Float.ofNat (k + 1) / 2.0 / f)

def erfcUpper (x : Float) : Float := (-(x * x)).exp / pi.sqrt / erfcFraction x 60 x

def erf (x : Float) : Float :=
  if x.abs < 2.5 then erfSeries x
  else if 0.0 < x then 1.0 - erfcUpper x
  else erfcUpper (-x) - 1.0

def erfc (x : Float) : Float :=
  if x.abs < 2.5 then 1.0 - erfSeries x
  else if 0.0 < x then erfcUpper x
  else 2.0 - erfcUpper (-x)

/-- The error function on the imaginary axis. -/
def erfi (x : Float) : Float :=
  let sum := (List.range 400).foldl
    (fun (acc : Float × Float) k =>
      (acc.1 + acc.2 / Float.ofNat (2 * k + 1), acc.2 * x * x / Float.ofNat (k + 1)))
    (0.0, x)
  2.0 / pi.sqrt * sum.1

/-! ## Integrals -/

/-- `Σ x^k / (k · k!)` from the first term on, every `step`-th of them with
alternating sign where asked. -/
def integralSeries (x : Float) (first step : Nat) (alternating : Bool) : Float :=
  let r := (List.range 400).foldl
    (fun (acc : Float × Float) i =>
      -- the power divided by the factorial of `k`
      let k := i + 1
      let p := acc.2 * x / Float.ofNat k
      let turns := (k - first) / step
      let sign := if alternating && turns % 2 == 1 then -1.0 else 1.0
      let counts := first ≤ k && (k - first) % step == 0
      (if counts then acc.1 + sign * p / Float.ofNat k else acc.1, p))
    (0.0, 1.0)
  r.1

/-- The exponential integral of a large negative argument. -/
def expFraction (x : Float) : (k : Nat) → Float → Float
  | 0, f => f
  | k + 1, f => expFraction x k (x + Float.ofNat (k + 1) / (1.0 + Float.ofNat (k + 1) / f))

def exponentialIntegral? (x : Float) : Option Float :=
  if x == 0.0 then none
  else if x < -2.0 then
    let y := -x
    some (-((-y).exp / expFraction y 80 y))
  else some (eulerGamma + x.abs.log + integralSeries x 1 1 false)

def sineIntegral (x : Float) : Float := integralSeries x 1 2 true
def hyperbolicSineIntegral (x : Float) : Float := integralSeries x 1 2 false

def cosineIntegral? (x : Float) : Option Float :=
  if x ≤ 0.0 then none else some (eulerGamma + x.log - integralSeries x 2 2 true)

def hyperbolicCosineIntegral? (x : Float) : Option Float :=
  if x ≤ 0.0 then none else some (eulerGamma + x.log + integralSeries x 2 2 false)

def logarithmicIntegral? (x : Float) : Option Float :=
  if x ≤ 0.0 || x == 1.0 then none else exponentialIntegral? x.log

/-! ## The zeta function -/

/-- Summation to twenty terms with the correction by derivatives. -/
def zetaSum (s : Float) : Float :=
  let n := 20.0
  let head := sumTo (fun k => Float.pow (Float.ofNat (k + 1)) (-s)) 19
  let last := Float.pow n (1.0 - s) / (s - 1.0) + 0.5 * Float.pow n (-s)
  let bernoulli : List Float :=
    [1.0 / 12.0, -1.0 / 720.0, 1.0 / 30240.0, -1.0 / 1209600.0, 1.0 / 47900160.0,
      -691.0 / 1307674368000.0]
  let tail := bernoulli.zipIdx.foldl
    (fun (acc : Float × Float) p =>
      -- the rising product s (s + 1) … over the falling power of n
      let k := Float.ofNat (2 * p.2)
      let next := acc.2 * (s + k + 1.0) * (s + k + 2.0) / (n * n)
      (acc.1 + p.1 * acc.2, next))
    (0.0, s * Float.pow n (-s - 1.0))
  head + last + tail.1

def zeta? (s : Float) : Option Float :=
  if s == 1.0 then none
  else if -1.0 < s then some (zetaSum s)
  else do
    let g ← gamma? (1.0 - s)
    some (Float.pow 2.0 s * Float.pow pi (s - 1.0) * (pi * s / 2.0).sin * g * zetaSum (1.0 - s))

/-! ## Other functions -/

/-- The solution `w` of `w · e^w = x`, by improving a guess. -/
def productLog? (x : Float) : Option Float :=
  let branch := -1.0 / (1.0 : Float).exp
  if x < branch then none
  else
    let guess :=
      if x < -0.25 then -1.0 + (2.0 * (1.0 + (1.0 : Float).exp * x)).sqrt
      else if x < 3.0 then x / (1.0 + x)
      else x.log - x.log.log
    some ((List.range 60).foldl
      (fun w _ =>
        let e := w.exp
        let f := w * e - x
        let d := e * (w + 1.0) - (w + 2.0) * f / (2.0 * w + 2.0)
        let next := w - f / d
        if next.isFinite then next else w)
      guess)

/-- The complete elliptic integrals of the first and second kind, by the
arithmetic and geometric mean. -/
def elliptic (m : Float) : Float × Float :=
  let r := (List.range 40).foldl
    (fun (s : Float × Float × Float × Float) _ =>
      let a := (s.1 + s.2.1) / 2.0
      let c := (s.1 - s.2.1) / 2.0
      (a, (s.1 * s.2.1).sqrt, s.2.2.1 + s.2.2.2 * c * c, 2.0 * s.2.2.2))
    (1.0, (1.0 - m).sqrt, m / 2.0, 1.0)
  let k := pi / (2.0 * r.1)
  (k, k * (1.0 - r.2.2.1))

def ellipticFirst? (m : Float) : Option Float := if 1.0 ≤ m then none else some (elliptic m).1

def ellipticSecond? (m : Float) : Option Float :=
  if 1.0 < m then none else if m == 1.0 then some 1.0 else some (elliptic m).2

/-! ## By name -/

/-- The functions of one argument. A name without a value here is no
special function. -/
def one? (name : String) : Option (Float → Option Float) :=
  match name with
  | "gamma" => some gamma?
  | "factorial" => some fun x => gamma? (x + 1.0)
  | "loggamma" => some logGamma?
  | "digamma" => some digamma?
  | "trigamma" => some trigamma?
  | "harmonic" => some fun x => (digamma? (x + 1.0)).map (· + eulerGamma)
  | "erf" => some (some ∘ erf)
  | "erfc" => some (some ∘ erfc)
  | "erfi" => some (some ∘ erfi)
  | "Ei" => some exponentialIntegral?
  | "Si" => some (some ∘ sineIntegral)
  | "Ci" => some cosineIntegral?
  | "Shi" => some (some ∘ hyperbolicSineIntegral)
  | "Chi" => some hyperbolicCosineIntegral?
  | "li" => some logarithmicIntegral?
  | "zeta" => some zeta?
  | "dirichlet_eta" => some fun s =>
    (zeta? s).map fun z => (1.0 - Float.pow 2.0 (1.0 - s)) * z
  | "LambertW" => some productLog?
  | "elliptic_k" => some ellipticFirst?
  | "elliptic_e" => some ellipticSecond?
  | "sinh" => some (some ∘ Float.sinh)
  | "cosh" => some (some ∘ Float.cosh)
  | "tanh" => some (some ∘ Float.tanh)
  | "coth" => some fun x => some (1.0 / x.tanh)
  | "sech" => some fun x => some (1.0 / x.cosh)
  | "csch" => some fun x => some (1.0 / x.sinh)
  | "asinh" => some (some ∘ Float.asinh)
  | "acosh" => some fun x => if x < 1.0 then none else some x.acosh
  | "atanh" => some fun x => if x.abs < 1.0 then some x.atanh else none
  | "acoth" => some fun x => if 1.0 < x.abs then some (1.0 / x).atanh else none
  | "asech" => some fun x => if 0.0 < x && x ≤ 1.0 then some (1.0 / x).acosh else none
  | "acsch" => some fun x => some (1.0 / x).asinh
  | "asec" => some fun x => if 1.0 ≤ x.abs then some (1.0 / x).acos else none
  | "acsc" => some fun x => if 1.0 ≤ x.abs then some (1.0 / x).asin else none
  | "acot" => some fun x => some (if x == 0.0 then pi / 2.0 else (1.0 / x).atan)
  | "sinc" => some fun x => some (if x == 0.0 then 1.0 else x.sin / x)
  | _ => none

def two? (name : String) : Option (Float → Float → Option Float) :=
  match name with
  | "beta" => some beta?
  | "atan2" => some fun y x => some (Float.atan2 y x)
  | "RisingFactorial" => some fun x k => do return (← gamma? (x + k)) / (← gamma? x)
  | "FallingFactorial" => some fun x k => do return (← gamma? (x + 1.0)) / (← gamma? (x - k + 1.0))
  | "binomial" => some fun n k => do
    return (← gamma? (n + 1.0)) / ((← gamma? (k + 1.0)) * (← gamma? (n - k + 1.0)))
  | _ => none

end Fluxion.Algebra.Special
