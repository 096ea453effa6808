/-
The functions of the vocabulary at forms. A function that no expression
tree has is kept under its name, unless it is known at its arguments: at
exact numbers where its value is exact, and at floating point numbers where
it can be computed.
-/
import Fluxion.Algebra.Condition
import Fluxion.Algebra.Counting
import Fluxion.Algebra.Orthogonal
import Fluxion.Algebra.Special
import Fluxion.Algebra.Vocabulary

namespace Fluxion.Algebra.Library

/-! ## Rounding -/

def floor? (u : Form) : Option Int :=
  match u with
  | .number (.exact q) => some q.floor
  | .number (.approximate x) => some x.toRat.floor
  | u => if u.isNumeric then u.realValue?.map fun x => Double.toInt x.floor else none

def ceiling? (u : Form) : Option Int := (floor? u.turned).map fun n => -n

/-- The whole number next to a real one on the way to zero. -/
def whole? (u : Form) : Option Int := if u.isNegative then ceiling? u else floor? u

def fractional (u : Form) : Result Form :=
  match floor? u with
  | some n => rules.sub u (Form.int n)
  | none => .ok (.foreign "frac" [u])

/-! ## Floating point values -/

def inexact (p : Nat) (x : Float) : Form := .number (.float ((Binary.ofFloat x).rounded p))

def precision : Form → Nat
  | .number a => a.precision
  | _ => 0

mutual

def finest : Form → Nat
  | .number a => a.precision
  | .sum us | .product us | .foreign _ us => finestOf us
  | .power b e => Binary.finer (finest b) (finest e)
  | .call _ u => finest u
  | _ => 0

def finestOf : List Form → Nat
  | [] => 0
  | u :: us => Binary.finer (finest u) (finestOf us)

end

/-- A function at floating point numbers, all of them: computed where it
has a real value, refused at its poles. -/
def computed (name : String) (us : List Form) : Result Form :=
  let kept := Form.foreign name us
  let p := us.foldl (fun p u => Binary.finer p (precision u)) 0
  let value? : Option (Option Float) :=
    match us.map (fun u => u.realValue?) with
    | [some x] => (Special.one? name).map fun f => f x
    | [some x, some y] => (Special.two? name).map fun f => f x y
    | _ => none
  if us.isEmpty || us.any (fun u => precision u == 0) then .ok kept
  else
    match name, us with
    | "factorial", [.number (.approximate x)] =>
      if x.isInteger && !x.isNegative && x.toFloat < 3000.0 then
        let n : Nat := Integer.factorial x.toRat.num.natAbs
        .ok (.number (.float (.ofRat p (Rat.ofInt n))))
      else finish kept p value?
    | _, _ => finish kept p value?
where
  finish (kept : Form) (p : Nat) : Option (Option Float) → Result Form
    | some (some x) => .ok (if x.isFinite then inexact p x else kept)
    | some none => if ["gamma", "factorial", "digamma", "loggamma"].contains name then
        .error .outsideDomain else .ok kept
    | none => .ok kept

mutual

/-- Every number in a form made floating point with a number of bits;
whole exponents are kept. -/
def numericWith (p : Nat) : Form → Result Form
  | .number a => .ok (.number (if a.isFinite && !a.isZero then
      .approximate ((a.toBinary p).rounded p) else a))
  | .constant c => .ok (inexact p c.toFloat)
  | .sum us => do rules.sum (← numericAll p us)
  | .product us => do rules.product (← numericAll p us)
  | .power b e => do
    let f ← if e.int?.isSome then pure e else numericWith p e
    rules.power (← numericWith p b) f
  | .call op u => do rules.call op (← numericWith p u)
  | .foreign name us => do computed name (← numericAll p us)
  | u => .ok u

def numericAll (p : Nat) : List Form → Result (List Form)
  | [] => .ok []
  | u :: us => do
    let v ← numericWith p u
    let vs ← numericAll p us
    return v :: vs

end

/-- The value of a form to a number of digits. A form without symbols is
computed at once, so that the digits are those of its value. -/
def numeric (digits : Nat) (u : Form) : Result Form :=
  let p := Binary.bitsFor digits
  match u with
  | .number a =>
    .ok (.number (if a.isFinite then .approximate ((a.toBinary p).rounded p) else a))
  | u =>
    match u.realValue? with
    | some x => .ok (inexact p x)
    | none => numericWith p u

/-! ## Rounding to digits -/

/-- How many decimal places lie in front of the first digit's right: the
`k` with `10^(k-1) ≤ |q| < 10^k`. -/
def magnitude (q : Rat) : Int :=
  let n := q.num.natAbs
  let guess : Int := ((n.log2 : Int) - (q.den.log2 : Int)) * 3 / 10 - 2
  climb n q.den 12 guess
where
  climb (n d : Nat) : (fuel : Nat) → Int → Int
    | 0, k => k
    | fuel + 1, k =>
      let above := if 0 ≤ k then d * Nat.pow 10 k.toNat ≤ n else d ≤ n * Nat.pow 10 (-k).toNat
      if above then climb n d fuel (k + 1) else k

def tenTo (k : Int) : Rat :=
  if 0 ≤ k then Rat.ofInt (Nat.pow 10 k.toNat : Nat) else mkRat 1 (Nat.pow 10 (-k).toNat)

/-- The nearest whole number, a tie going to the even one. -/
def nearest (q : Rat) : Int :=
  let n := Double.roundDiv q.num.natAbs q.den
  if q.num < 0 then -(n : Int) else n

/-- A whole number rounded at a decimal place, left of the point if
negative. -/
def atPlace (n : Int) (place : Int) : Int :=
  if 0 ≤ place then n
  else
    let m : Int := Nat.pow 10 (-place).toNat
    nearest (mkRat n m.natAbs) * m

/-- A real number rounded to decimal places; without a number of places, to
a whole number. It is read to the digits it has, and one more to settle
ties, before it is rounded. -/
def roundedTo (places : Option Int) (u : Form) : Result Form :=
  let p := places.getD 0
  match u with
  | .number (.exact q) =>
    if q.den == 1 then .ok (Form.int (atPlace q.num p)) else finish q none p
  | .number (.approximate x) =>
    if x.isZero then .ok (if places.isNone then Form.zero else u)
    else finish x.toRat (some (Binary.digitsFor x.precision)) p
  | .number _ => .ok u
  | u =>
    match u.realValue? with
    | some x =>
      let used := finest u
      let digits := if used == 0 then none else some (Binary.digitsFor used)
      finish (Binary.ofFloat x).toRat digits p
    | none => .error .mixedLogic
where
  finish (q : Rat) (digits : Option Nat) (p : Int) : Result Form :=
    let mag := magnitude q
    let wanted := mag + p
    let kept : Nat := match digits with
      | some d => d
      | none => Nat.max 15 wanted.toNat
    let allowed : Int := match digits with
      | some d => if wanted < (d : Int) then wanted else d
      | none => wanted
    let shift := (kept : Int) - mag
    let bits := Binary.bitsFor (kept + 1)
    let scaled := (Binary.ofRat bits (Rat.mul (Binary.ofRat bits q).toRat (tenTo shift))).toRat
    let cut : Int := if scaled.num < 0 then -(Rat.neg scaled).floor else scaled.floor
    let sign : Int := if q.num < 0 then -1 else 1
    let rest := (Binary.ofRat (Binary.bitsFor 1)
      (Rat.mul (Rat.ofInt sign) (Rat.sub scaled (Rat.ofInt cut)))).toRat
    let half := Rat.sub rest (mkRat 1 2)
    let n : Int :=
      if 0 < half.num then cut + sign
      else if half.num == 0 then (if cut % 2 == 0 then cut - sign else cut + sign)
      else cut
    let r := Rat.div (Rat.ofInt (atPlace n (p - shift))) (tenTo shift)
    if r.den == 1 then
      .ok (if places.isNone then Form.rational r
        else .number (.float (.ofRat (Binary.bitsFor kept) r)))
    else
      let more := allowed == 0 && 0 < (Rat.sub r q).num
      let d := (if more then allowed + 1 else allowed)
      if d < 1 then .ok (.number (.float (.ofRat 1 r)))
      else .ok (.number (.float (.ofRat (Binary.bitsFor d.toNat) r)))

/-! ## Functions at numbers -/

def imaginaryFactor? : Form → Option Form
  | .imaginary => some Form.one
  | .product us =>
    let v := Form.rawProduct (us.filter fun w => !(w == .imaginary))
    if us.contains .imaginary && v.isReal then some v else none
  | _ => none

def realAndImaginary? (u : Form) : Option (Form × Form) := do
  let ps ← u.terms.mapM fun t =>
    match imaginaryFactor? t with
    | some v => some (Form.zero, v)
    | none => if t.isReal then some (t, Form.zero) else none
  let a := ps.map Prod.fst |>.filter fun v => !v.isZero
  let b := ps.map Prod.snd |>.filter fun v => !v.isZero
  return (Form.rawSum a, Form.rawSum b)

def modulus (p : Form × Form) : Result Form := do
  rules.sqrt (← rules.add (← rules.power p.1 Form.two) (← rules.power p.2 Form.two))

def absolute (u : Form) : Result Form :=
  match imaginaryFactor? u, u with
  | some v, _ =>
    if v.isNegative then rules.neg v
    else .ok (if v.isNonnegative then v else .foreign "Abs" [v])
  | none, .number a => .ok (.number a.abs)
  | none, .product (.number a :: rest) => do
    let v ← if (Form.rawProduct rest).isNonnegative then pure (Form.rawProduct rest)
      else pure (.foreign "Abs" [Form.rawProduct rest])
    rules.product [.number a.abs, v]
  | none, u =>
    if u.isNonnegative then .ok u
    else if u.isNegative then rules.neg u
    else
      match realAndImaginary? u, u.constantValue? with
      | some p, _ => modulus p
      | none, some z =>
        if (z.norm - 1.0).abs < 1e-15 then .ok Form.one else .ok (.foreign "Abs" [u])
      | none, none => .ok (.foreign "Abs" [u])

def sign? (u : Form) : Option Form :=
  if u.isZero then some Form.zero
  else if u.isPositive then some Form.one
  else if u.isNegative then some Form.minusOne
  else none

/-- The remainder with the sign of the divisor, where both are exact
numbers. -/
def exactRemainder (a b : Rat) : Result Rat :=
  if b.num == 0 then .error .zeroDivision else .ok (Number.modulo a b)

def remainder (u v : Form) : Result Form :=
  let kept := Form.foreign "Mod" [u, v]
  let inexactly (x : Rat) (p : Nat) : Form := .number (.float (.ofRat p x))
  if v.isZero then .error .zeroDivision
  else
    match u, v with
    | .number (.exact a), .number (.exact b) => do return Form.rational (← exactRemainder a b)
    | .number (.exact a), .number (.approximate y) => do
      return inexactly (← exactRemainder a y.toRat) y.precision
    | .number (.approximate x), .number (.exact b) => do
      return inexactly (← exactRemainder x.toRat b) x.precision
    | .number (.approximate x), .number (.approximate y) => do
      return inexactly (← exactRemainder x.toRat y.toRat) (Binary.finer x.precision y.precision)
    | u, v => do
      if u == Form.undefined || v == Form.undefined then return Form.undefined
      else if u.isZero || u == v || u.turned == v then return Form.zero
      else
        let q ← rules.div u v
        match q.int?, floor? q with
        | some _, _ => return Form.zero
        | none, some n => if u.isNumeric && v.isNumeric then
            rules.sub u (← rules.mul (Form.int n) v) else return kept
        | none, none => return kept

def distinct : List Form → List Form
  | [] => []
  | u :: us => u :: (distinct us).filter fun v => !(v == u)

/-- The extreme of forms: real numbers are compared, all others are kept;
`upper` tells the greatest from the least. -/
def extreme (upper : Bool) (us : List Form) : Result Form :=
  let name := if upper then "Max" else "Min"
  let bottom : Form := .number (.infinite upper)
  let top : Form := .number (.infinite !upper)
  let isNumber (u : Form) : Bool := u.isNumeric
  if us.any fun u => u.isLogical || u.real? == some false then .error .outsideDomain
  else if us.any (· == Form.undefined) then .ok Form.undefined
  else
    let best := (us.filter isNumber).foldl
      (fun (acc : Form) u =>
        match Form.realOrder? u acc with
        | some o => if (o == .gt) == upper && o != .eq then u else acc
        | none => acc)
      bottom
    let others := distinct (us.filter fun u => !isNumber u)
    if best == top then .ok top
    else
      match (if best == bottom then others else best :: others) with
      | [] => .ok bottom
      | [u] => .ok u
      | vs => .ok (.foreign name (Form.sorted vs))

def factorial (u : Form) : Form :=
  match u.int? with
  | some n => if n < 0 then .unsigned else Form.int (Integer.factorial n.toNat : Nat)
  | none => match u with
    | .number (.infinite false) => u
    | u => .foreign "factorial" [u]

/-- The product of every second number; a negative odd number continues it
downwards, and no other number has one. -/
def doubleFactorial (u : Form) : Result Form :=
  match u, u.int? with
  | _, some n =>
    if 0 ≤ n then .ok (Form.int (Counting.everySecond n.toNat : Nat))
    else if n % 2 == 1 then
      let s := Counting.alternating ((1 - n) / 2)
      .ok (Form.rational (mkRat (n * s) (Counting.everySecond (-n).toNat)))
    else .error .outsideDomain
  | .number _, none => .error .outsideDomain
  | u, none => .ok (.foreign "factorial2" [u])

def gamma (u : Form) : Result Form :=
  match u.rat? with
  | some q =>
    if q.den == 1 then
      .ok (if q.num ≤ 0 then .unsigned
        else Form.int (Integer.factorial (q.num.toNat - 1) : Nat))
    else if q.den == 2 then do
      let root ← rules.sqrt Form.pi
      let k := (q.num.natAbs - 1) / 2
      let odd := Counting.everySecond (2 * k - 1)
      if 0 < q.num then rules.product [Form.ratio odd (Nat.pow 2 k), root]
      else
        let k := k + 1
        let odd := Counting.everySecond (2 * k - 1)
        let c := mkRat (Counting.alternating k * (Nat.pow 2 k : Nat)) odd
        rules.product [Form.rational c, root]
    else .ok (.foreign "gamma" [u])
  | none => match u with
    | .number (.infinite false) => .ok u
    | u => .ok (.foreign "gamma" [u])

/-- The number of ways to choose: at a whole `v` a product of as many
factors, and at other numbers a quotient of values of the gamma function. -/
def binomial (u v : Form) : Result Form :=
  let kept := Form.foreign "binomial" [u, v]
  match v.int?, u.rat? with
  | some k, q =>
    if k < 0 then .ok Form.zero
    else if k == 0 then .ok Form.one
    else if k == 1 then .ok u
    else
      match q with
      | some q => .ok (Form.rational (Counting.choose q k.toNat))
      | none =>
        if u.isNumber then do
          let factors ← (List.range k.toNat).mapM fun (i : Nat) => rules.sub u (Form.int i)
          rules.div (← rules.product factors) (Form.int (Integer.factorial k.toNat : Nat))
        else .ok kept
  | none, _ =>
    if u == v then .ok Form.one
    else if u.isNumber && v.isNumber then
      if (u.int?.map fun n => decide (n < 0)) == some true then .ok .unsigned
      else do
        let below ← rules.mul (← gammaAt (← rules.add v Form.one))
          (← gammaAt (← rules.add (← rules.sub u v) Form.one))
        rules.div (← gammaAt (← rules.add u Form.one)) below
    else .ok kept
where
  gammaAt (w : Form) : Result Form := do
    match ← gamma w with
    | .foreign f ws => computed f ws
    | r => return r

/-- Values of the zeta function at even positive and at negative whole
numbers. -/
def zeta (u : Form) : Result Form :=
  match u.int? with
  | some n =>
    if n == 0 then .ok (Form.ratio (-1) 2)
    else if n == 1 then .ok .unsigned
    else if n < 0 then
      let k := (-n).toNat
      .ok (Form.rational (Rat.div (Rat.neg (Counting.bernoulli (k + 1))) (Rat.ofInt (k + 1 : Nat))))
    else if n % 2 == 0 then do
      let k := n.toNat
      let b := Counting.bernoulli k
      let c := Rat.div (Rat.mul (Rat.ofInt (Nat.pow 2 (k - 1) : Nat)) (mkRat b.num.natAbs b.den))
        (Rat.ofInt (Integer.factorial k : Nat))
      rules.product [Form.rational c, ← rules.power Form.pi (Form.int n)]
    else .ok (.foreign "zeta" [u])
  | none => match u with
    | .number (.infinite false) => .ok Form.one
    | u => .ok (.foreign "zeta" [u])

/-- An inverse function by the inverse of the reciprocal, where that is
known. -/
def byReciprocal (name : String) (op : UnaryOp) (u : Form) : Result Form := do
  if u.isNumeric && !u.isZero then
    match ← rules.call op (← rules.inv u) with
    | .call _ _ => return .foreign name [u]
    | .product [_, .call _ _] => return .foreign name [u]
    | v => return v
  else return .foreign name [u]

def angle (y x : Form) : Result Form := do
  let kept := Form.foreign "atan2" [y, x]
  match y.realValue?, x.realValue? with
  | some b, some a =>
    if a == 0.0 then
      if b == 0.0 then return Form.undefined
      else rules.product [Form.ratio (if 0.0 < b then 1 else -1) 2, Form.pi]
    else
      let t ← rules.call .atan (← rules.div y x)
      if 0.0 < a then return t
      else if b < 0.0 then rules.sub t Form.pi
      else rules.add t Form.pi
  | _, _ => return kept

def hyperbolics : List String :=
  ["sinh", "cosh", "tanh", "coth", "sech", "csch", "asinh", "acosh", "atanh", "acoth", "asech",
    "acsch"]

def hyperbolic (name : String) (u : Form) : Result Form :=
  let kept := Form.foreign name [u]
  let odd := ["sinh", "tanh", "coth", "csch", "asinh", "atanh", "acoth", "acsch"].contains name
  let even := ["cosh", "sech"].contains name
  match name, u with
  | _, .number .undefined => .ok Form.undefined
  | "sinh", .number (.infinite _) | "asinh", .number (.infinite _) => .ok u
  | "cosh", .number (.infinite _) | "acosh", .number (.infinite _) =>
    .ok (.number (.infinite false))
  | "tanh", .number (.infinite n) | "coth", .number (.infinite n) =>
    .ok (if n then Form.minusOne else Form.one)
  | "sech", .number (.infinite _) | "csch", .number (.infinite _) => .ok Form.zero
  | name, u =>
    if u.isZero then
      match name with
      | "sinh" | "tanh" | "asinh" | "atanh" => .ok Form.zero
      | "cosh" | "sech" => .ok Form.one
      | "coth" | "csch" | "acsch" => .ok .unsigned
      | "asech" => .ok (.number (.infinite false))
      | "acosh" => rules.product [Form.half, Form.pi, .imaginary]
      | "acoth" => rules.product [Form.half, Form.pi, .imaginary]
      | _ => .ok kept
    else if u == Form.one && (name == "acosh" || name == "asech") then .ok Form.zero
    else if u == Form.one && name == "atanh" then .ok (.number (.infinite false))
    else if u == Form.one && name == "asinh" then do
      rules.call .ln (← rules.add Form.one (← rules.sqrt Form.two))
    else if precision u == 0 && odd && u.leansNegative then
      rules.neg (.foreign name [u.turned])
    else if precision u == 0 && even && u.leansNegative then .ok (.foreign name [u.turned])
    else .ok kept

def errorFunction (name : String) (u : Form) : Result Form :=
  let kept := Form.foreign name [u]
  match name, u with
  | "erf", .number (.infinite n) => .ok (if n then Form.minusOne else Form.one)
  | "erfc", .number (.infinite n) => .ok (if n then Form.two else Form.zero)
  | name, u =>
    if u.isZero then .ok (if name == "erfc" then Form.one else Form.zero)
    else if precision u == 0 && name != "erfc" && u.leansNegative then
      rules.neg (.foreign name [u.turned])
    else .ok kept

def integralFunction (name : String) (u : Form) : Form :=
  match name, u with
  | "Si", .number (.infinite _) => .foreign name [u]
  | "Ei", .number (.infinite false) | "li", .number (.infinite false) => u
  | "Ei", .number (.infinite true) => Form.zero
  | name, u =>
    if u.isZero then
      match name with
      | "Si" | "Shi" | "li" | "fresnels" | "fresnelc" => Form.zero
      | "Ei" => .number (.infinite true)
      | _ => .foreign name [u]
    else .foreign name [u]

def sequence? (name : String) : Option (Int → Option Form) :=
  let natural (f : Nat → Form) : Option (Int → Option Form) :=
    some fun n => if n < 0 then none else some (f n.toNat)
  match name with
  | "fibonacci" => some fun n => some (Form.int (Counting.fibonacci n))
  | "lucas" => some fun n => some (Form.int (Counting.lucas n))
  | "tribonacci" => natural fun n => Form.int (Counting.tribonacci n : Nat)
  | "catalan" => natural fun n => Form.int (Counting.catalan n : Nat)
  | "bell" => natural fun n => Form.int (Counting.bell n : Nat)
  | "motzkin" => natural fun n => Form.int (Counting.motzkin n : Nat)
  | "partition" => natural fun n => Form.int (Counting.partitions n : Nat)
  | "bernoulli" => natural fun n => Form.rational (Counting.bernoulli n)
  | "euler" => natural fun n => Form.int (Counting.euler n)
  | "genocchi" => natural fun n => Form.rational (Counting.genocchi n)
  | "harmonic" => natural fun n => Form.rational (Counting.harmonic n 1)
  | "subfactorial" => natural fun n => Form.int (Counting.derangements n : Nat)
  | "totient" => natural fun n => Form.int (Counting.totient n : Nat)
  | "mobius" => natural fun n => Form.int (Counting.moebius n)
  | "divisor_sigma" => natural fun n => Form.int (Counting.divisorSum n 1 : Nat)
  | "primepi" => natural fun n => Form.int (Counting.primesUpTo n : Nat)
  | "primenu" => natural fun n => Form.int (Counting.factorization n).length
  | "primeomega" => natural fun n =>
    Form.int ((Counting.factorization n).foldl (fun s p => s + p.2) 0 : Nat)
  | _ => none

/-- A function of a whole number and another one, the first at least
`least`. -/
def atPair (kept : Form) (least : Int) (f : Nat → Nat → Form) (u v : Form) : Form :=
  match u.int?, v.int? with
  | some n, some k => if n < least || k < 0 then kept else f n.toNat k.toNat
  | _, _ => kept

def exactlyOne (name : String) (u : Form) : Result Form :=
  let kept := Form.foreign name [u]
  match name with
  | "Abs" => absolute u
  | "sign" => .ok ((sign? u).getD kept)
  | "floor" => .ok (((floor? u).map Form.int).getD (if u.isInfinite then u else kept))
  | "ceiling" => .ok (((ceiling? u).map Form.int).getD (if u.isInfinite then u else kept))
  | "frac" => fractional u
  | "re" => .ok (match realAndImaginary? u with
    | some p => p.1
    | none => kept)
  | "im" => .ok (match realAndImaginary? u with
    | some p => p.2
    | none => kept)
  | "conjugate" =>
    match realAndImaginary? u with
    | some p => do rules.sub p.1 (← rules.mul p.2 .imaginary)
    | none => .ok kept
  | "transpose" | "adjoint" => .ok (if u.isNumber then u else kept)
  | "arg" =>
    if u.isPositive then .ok Form.zero
    else if u.isNegative then .ok Form.pi
    else
      match realAndImaginary? u with
      | some p => angle p.2 p.1
      | none => .ok kept
  | "factorial" => .ok (factorial u)
  | "factorial2" => doubleFactorial u
  | "gamma" => gamma u
  | "loggamma" =>
    match u.int? with
    | some n =>
      if n ≤ 0 then .ok (.number (.infinite false))
      else rules.call .ln (Form.int (Integer.factorial (n.toNat - 1) : Nat))
    | none => .ok kept
  | "digamma" =>
    match u.int? with
    | some n =>
      if n ≤ 0 then .ok .unsigned
      else rules.sub (Form.rational (Counting.harmonic (n.toNat - 1) 1)) (.constant .eulerGamma)
    | none => .ok kept
  | "zeta" => zeta u
  | "elliptic_k" => if u.isZero then rules.product [Form.half, Form.pi] else .ok kept
  | "elliptic_e" =>
    if u.isZero then rules.product [Form.half, Form.pi]
    else .ok (if u == Form.one then Form.one else kept)
  | "LambertW" =>
    .ok (if u.isZero then Form.zero else if u == .constant .e then Form.one else kept)
  | "Heaviside" =>
    .ok (if u.isZero then Form.half
      else if u.isPositive then Form.one
      else if u.isNegative then Form.zero
      else kept)
  | "DiracDelta" => .ok (if u.isPositive || u.isNegative then Form.zero else kept)
  | "sinc" => .ok (if u.isZero then Form.one else kept)
  | "asec" => byReciprocal name .acos u
  | "acsc" => byReciprocal name .asin u
  | "acot" =>
    if u.isZero then rules.product [Form.half, Form.pi] else byReciprocal name .atan u
  | "erf" | "erfc" | "erfi" => errorFunction name u
  | "Si" | "Shi" | "Ei" | "li" | "fresnels" | "fresnelc" => .ok (integralFunction name u)
  | name =>
    if hyperbolics.contains name then hyperbolic name u
    else
      match sequence? name, u.int? with
      | some f, some n => .ok ((f n).getD kept)
      | _, _ => .ok kept

/-- The remainder with the sign of the first number. -/
def signedRemainder (u v : Form) : Result Form :=
  match u.rat?, v.rat? with
  | some a, some b =>
    if b.num == 0 then .error .zeroDivision
    else
      let q := Rat.div a b
      let n := if q.num < 0 then -(Rat.neg q).floor else q.floor
      .ok (Form.rational (Rat.sub a (Rat.mul b (Rat.ofInt n))))
  | _, _ => .ok (.foreign "Rem" [u, v])

/-- The value of a polynomial, the constant coefficient first. -/
def polynomialAt (cs : List Rat) (v : Form) : Result Form := do
  let terms ← cs.zipIdx.mapM fun p => do
    rules.mul (Form.rational p.1) (← rules.power v (Form.int p.2))
  rules.sum terms

def exactlyTwo (name : String) (u v : Form) : Result Form :=
  let kept := Form.foreign name [u, v]
  match name with
  | "Mod" => remainder u v
  | "Rem" => signedRemainder u v
  | "binomial" => binomial u v
  | "RisingFactorial" => .ok (match u.rat?, v.int? with
    | some q, some k => if k < 0 then kept else Form.rational (Counting.rising q k.toNat)
    | _, _ => kept)
  | "FallingFactorial" => .ok (match u.rat?, v.int? with
    | some q, some k => if k < 0 then kept else Form.rational (Counting.falling q k.toNat)
    | _, _ => kept)
  | "harmonic" => .ok (atPair kept 0 (fun n k => Form.rational (Counting.harmonic n k)) u v)
  | "divisor_sigma" =>
    .ok (atPair kept 1 (fun n k => Form.int (Counting.divisorSum n k : Nat)) u v)
  | "beta" =>
    match u.int?, v.int? with
    | some m, some n =>
      if 0 < m && 0 < n then do
        rules.div (← rules.mul (← gamma u) (← gamma v)) (← gamma (Form.int (m + n)))
      else .ok kept
    | _, _ => .ok kept
  | "KroneckerDelta" =>
    .ok (if u == v then Form.one else if u.isNumeric && v.isNumeric then Form.zero else kept)
  | "atan2" => angle u v
  | "besselj" | "besseli" =>
    .ok (if v.isZero && u.isZero then Form.one
      else if v.isZero && u.isPositive then Form.zero
      else kept)
  | "polylog" => if v.isZero then .ok Form.zero else if v == Form.one then zeta u else .ok kept
  | "zeta" => if v == Form.one then zeta u else .ok kept
  | "polygamma" => if u.isZero then exactlyOne "digamma" v else .ok kept
  | name =>
    match Orthogonal.family? name, u.int? with
    | some f, some n => if n < 0 then .ok kept else polynomialAt (f.member n.toNat) v
    | _, _ => .ok kept

/-- The exact value of a function that trees do not have. -/
def exactly (name : String) (us : List Form) : Result Form :=
  match us with
  | [u] => exactlyOne name u
  | [u, v] => exactlyTwo name u v
  | us => .ok (.foreign name us)

def special (name : String) (us : List Form) : Result Form := do
  if us.any (fun u => u.isLogical) then throw .noAlgebra
  match ← exactly name us with
  | .foreign f vs => if f == name then computed f vs else return .foreign f vs
  | v => return v

/-! ## Connectives -/

/-- Conditions joined by a connective that `unit` does not change and its
opposite decides. -/
def connected (name : String) (unit : Bool) (us : List Form) : Form :=
  let vs := distinct (us.filter fun u => !(u == .truth unit))
  if us.any (· == .truth !unit) || vs.any fun u => vs.any (· == u.opposite) then .truth !unit
  else
    match vs with
    | [] => .truth unit
    | [u] => u
    | vs => .foreign name (Form.sorted vs)

/-- A form taken for a condition: a symbol may stand for one, and one and
zero count as true and false. -/
def asCondition (u : Form) : Result Form :=
  match u with
  | .truth _ | .relate _ _ _ | .symbol _ => .ok u
  | .foreign f _ =>
    if ["And", "Or", "Not", "Xor", "Nand", "Nor", "Implies", "Equivalent", "ITE", "Contains",
      "AppliedPredicate"].contains f then .ok u else .error .mixedLogic
  | u =>
    if u == Form.one then .ok (.truth true)
    else if u == Form.zero then .ok (.truth false)
    else .error .mixedLogic

/-! ## Calling a name -/

def rational (us : List Form) : Result Form :=
  let ratio? (u : Form) : Option Rat :=
    match u with
    | .number (.exact q) => some q
    | .number (.approximate x) => some x.toRat
    | _ => none
  match us with
  | [.number (.infinite _)] | [.number .undefined] => .ok (us.headD Form.zero)
  | us =>
    match us.map ratio? with
    | [some p] => .ok (Form.rational p)
    | [some p, some q] =>
      if q.num == 0 then .ok (if p.num == 0 then Form.undefined else .unsigned)
      else .ok (Form.rational (Rat.div p q))
    | _ => .error .mixedLogic

def isArithmetic (u : Form) : Bool :=
  match u with
  | .foreign f _ => !(Vocabulary.unarithmetic.contains f)
  | u => !u.isLogical

def apply (name : String) (us : List Form) : Result Form :=
  let name := Vocabulary.standardName name
  match Vocabulary.function? name, Vocabulary.relation? name, us with
  | some op, _, [u] => rules.call op u
  | some _, _, _ => .error .mixedLogic
  | _, some rel, [l, r] => Form.related rel l r
  | _, some _, _ => .error .mixedLogic
  | none, none, us =>
    match name, us with
    | "log", [u] => rules.call .ln u
    | "log", [u, b] => Function.logarithmTo rules b u
    | "log", _ => .error .mixedLogic
    | "sqrt", [u] => rules.sqrt u
    | "cbrt", [u] => rules.power u (Form.ratio 1 3)
    | "root", [u, n] => do rules.power u (← rules.inv n)
    | "sqrt", _ | "cbrt", _ | "root", _ => .error .mixedLogic
    | "Add", us => if us.all isArithmetic then rules.sum us else .error .mixedLogic
    | "Mul", us => if us.all isArithmetic then rules.product us else .error .mixedLogic
    | "Pow", [b, e] | "pow", [b, e] => rules.power b e
    | "Pow", _ | "pow", _ => .error .mixedLogic
    | "Rational", us => rational us
    | "Not", [u] => .ok u.opposite
    | "Not", _ => .error .mixedLogic
    | "And", us => do return connected name true (← us.mapM asCondition)
    | "Or", us => do return connected name false (← us.mapM asCondition)
    | "Nand", us => do return (connected "And" true (← us.mapM asCondition)).opposite
    | "Nor", us => do return (connected "Or" false (← us.mapM asCondition)).opposite
    | "Xor", us => do return .foreign name (← us.mapM asCondition)
    | "ITE", [c, u, v] => do
      let c ← asCondition c
      let u ← asCondition u
      let v ← asCondition v
      match c with
      | .truth b => return if b then u else v
      | c => return .foreign name [c, u, v]
    | "ITE", _ => .error .mixedLogic
    | "Implies", [u, v] => .ok (connected "Or" false [u.opposite, v])
    | "Max", us => extreme true us
    | "Min", us => extreme false us
    | "UnevaluatedExpr", [u] => .ok (.foreign name [u])
    | name, us =>
      match Vocabulary.numberFunctions.find? fun p => p.1 == name with
      | some p => if p.2.contains us.length then special name us else .error .mixedLogic
      | none => .ok (.foreign name us)

/-- A name applied to forms and left as it stands: nothing is combined and
nothing is put in order. -/
def applyInert (name : String) (us : List Form) : Form :=
  let name := Vocabulary.standardName name
  match Vocabulary.function? name, Vocabulary.relation? name, us with
  | some op, _, [u] => .call op u
  | _, some rel, [l, r] => .relate rel l r
  | _, _, us =>
    match name, us with
    | "log", [u] => .call .ln u
    | "sqrt", [u] => .power u Form.half
    | "cbrt", [u] => .power u (Form.ratio 1 3)
    | "Add", us => Form.rawSum us
    | "Mul", us => Form.rawProduct us
    | "Pow", [b, e] | "pow", [b, e] => .power b e
    | name, us => .foreign name us

end Fluxion.Algebra.Library
