/-
Functions of one argument: exponentials and logarithms undo one another,
inverse trigonometric functions have exact values at the exact values of
their functions, and a function of a floating point number is a number.
-/
import Fluxion.Algebra.Integer
import Fluxion.Algebra.Rules.Angle

namespace Fluxion.Algebra.Function

/-- A real number, known without symbols. -/
def isComparable (u : Form) : Bool := u.isNumeric && u.isReal

/-! ## Exponential and logarithm -/

/-- The argument of the only logarithm among factors that are otherwise
real numbers, and those numbers. -/
def singleLog : List Form → Option (Option Form × List Form)
  | [] => some (none, [])
  | u :: us => do
    let s ← singleLog us
    match u with
    | .call .ln v => if s.1.isSome then none else some (some v, s.2)
    | u => if isComparable u then some (s.1, u :: s.2) else none

/-- The exponential of a product: `exp (c log x)` is `x^c`. -/
def expProduct (r : Rules) (us : List Form) : Result (Option Form) :=
  if us.any Form.isInfinite then .ok none
  else
    match singleLog us with
    | some (some v, cs) => do
      let c ← r.product cs
      some <$> r.power v c
    | _ => .ok none

/-- The exponential of a sum: terms whose exponential is not one again are
taken out. -/
def expSum (r : Rules) (us : List Form) : Result (Option Form) := do
  let parts ← us.mapM fun u => do
    if u == Form.one then return (none, some u)
    else
      match ← r.call .exp u with
      | .call .exp v => return (none, some v)
      | v => return (some v, none)
  let out := parts.filterMap Prod.fst
  let kept := parts.filterMap Prod.snd
  if out.isEmpty then return none
  else
    let s ← r.sum kept
    let rest := if s == Form.zero then Form.one
      else if s == Form.one then .constant .e
      else Form.exp s
    some <$> r.product (out ++ [rest])

/-- Whole and half multiples of pi times the imaginary unit. -/
def expTurn (us : List Form) : Option Form :=
  match us with
  | [.number (.exact q), .constant .pi, .imaginary]
  | [.number (.exact q), .imaginary, .constant .pi] =>
    if q.den == 1 then some (if q.num % 2 == 0 then Form.one else Form.minusOne)
    else if q.den == 2 then
      some (if q.num % 4 == 1 then .imaginary else .product [Form.minusOne, .imaginary])
    else none
  | [.constant .pi, .imaginary] | [.imaginary, .constant .pi] => some Form.minusOne
  | _ => none

def exponential (r : Rules) (u : Form) : Result (Option Form) :=
  match u with
  | .number .undefined | .unsigned => .ok (some Form.undefined)
  | .number (.infinite negative) =>
    .ok (some (if negative then Form.zero else .number (.infinite false)))
  | .number a =>
    .ok (if a.isZero then some Form.one
      else if a == .one then some (.constant .e)
      else none)
  | .call .ln v => .ok (some v)
  | .product us =>
    match expTurn us with
    | some v => .ok (some v)
    | none => expProduct r us
  | .sum us => expSum r us
  | _ => .ok none

def logarithm (r : Rules) (u : Form) : Result (Option Form) :=
  match u with
  | .number .undefined => .ok (some Form.undefined)
  | .number (.infinite _) => .ok (some (.number (.infinite false)))
  | .unsigned => .ok (some .unsigned)
  | .constant .e => .ok (some Form.one)
  | u =>
    if u.isZero then .ok (some .unsigned)
    else if u == Form.one then .ok (some Form.zero)
    else
      match u with
      | .number (.exact q) =>
        if q.num == 1 then do some <$> (do r.neg (← r.call .ln (Form.int q.den)))
        else negative
      | .call .exp v => if v.isReal then .ok (some v) else negative
      | _ => negative
where
  /-- The logarithm of a negative number is off by half a turn. -/
  negative : Result (Option Form) :=
    if u.isNumeric && u.isNegative then do
      let v ← r.call .ln (← r.neg u)
      let turn ← r.product [.imaginary, Form.pi]
      some <$> r.sum [turn, v]
    else .ok none

/-! ## Inverse trigonometric functions -/

/-- Angles whose functions are roots, as parts of pi. -/
def angles : List Rat :=
  [mkRat 1 12, mkRat 1 10, mkRat 1 8, mkRat 1 6, mkRat 1 5, mkRat 1 4, mkRat 3 10, mkRat 1 3,
    mkRat 3 8, mkRat 2 5, mkRat 5 12]

mutual

def isAlgebraic : Form → Bool
  | .number (.exact _) => true
  | .sum us | .product us => areAlgebraic us
  | .power b e => isAlgebraic b && e.isExact
  | _ => false

def areAlgebraic : List Form → Bool
  | [] => true
  | u :: us => isAlgebraic u && areAlgebraic us

end

def angleOf? (f : Float → Float) (u : Form) : Option Rat :=
  if isAlgebraic u then
    match u.realValue? with
    | some x => angles.find? fun q =>
        (f ((Number.exact q).toFloat * Complex.pi) - x).abs < 1e-14
    | none => none
  else none

/-- A number without its whole multiples of `period` times pi. -/
def reduce (r : Rules) (period : Int) (u : Form) : Result Form :=
  match u.realValue? with
  | some x =>
    let turns := Double.toInt (x / (Float.ofInt period * Complex.pi)).floor
    r.sum [u, .product [Form.int (-(turns * period)), Form.pi]]
  | none => .ok u

def exceeds (u : Form) (bound : Float) : Bool :=
  match u.realValue? with
  | some x => bound < x
  | none => false

def halfPi (r : Rules) : Result Form := Angle.multiple r (mkRat 1 2)

/-- The angle between minus and plus a quarter turn with the same sine. -/
def sameSine (r : Rules) (u : Form) : Result Form := do
  let v ← reduce r 2 u
  let v ← if exceeds v Complex.pi then r.sub Form.pi v else pure v
  let v ← if exceeds v (Complex.pi / 2.0) then r.sub Form.pi v else pure v
  if exceeds v (-(Complex.pi / 2.0)) then return v
  else r.sub (← r.neg Form.pi) v

/-- The angle of the upper half plane with the same cosine. -/
def sameCosine (r : Rules) (u : Form) : Result Form := do
  let v ← reduce r 2 u
  if exceeds v Complex.pi then r.sub (← Angle.multiple r (Rat.ofInt 2)) v else return v

def arcsine (r : Rules) (u : Form) : Result (Option Form) := do
  match u with
  | .number .undefined => return some Form.undefined
  | .number (.infinite negative) =>
    return some (.product [.number (.infinite !negative), .imaginary])
  | .unsigned => return some .unsigned
  | u =>
    if u.isZero then return some Form.zero
    else if u == Form.one then some <$> halfPi r
    else if u.leansNegative then some <$> (do r.neg (← r.call .asin (← r.neg u)))
    else
      match angleOf? Float.sin u with
      | some q => some <$> Angle.multiple r q
      | none =>
        match u with
        | .call .sin v => if isComparable v then some <$> sameSine r v else return none
        | .call .cos v =>
          if isComparable v then some <$> (do r.sub (← halfPi r) (← sameCosine r v))
          else return none
        | _ => return none

def arccosine (r : Rules) (u : Form) : Result (Option Form) := do
  match u with
  | .number .undefined => return some Form.undefined
  | .number (.infinite negative) =>
    return some (.product [.number (.infinite negative), .imaginary])
  | .unsigned => return some .unsigned
  | u =>
    if u.isZero then some <$> halfPi r
    else if u == Form.one then return some Form.zero
    else if u == Form.minusOne then return some Form.pi
    else
      match angleOf? Float.sin u, angleOf? Float.sin (Form.turned u) with
      | some q, _ => some <$> Angle.multiple r (Rat.sub (mkRat 1 2) q)
      | none, some q => some <$> Angle.multiple r (Rat.add (mkRat 1 2) q)
      | none, none =>
        match u with
        | .call .cos v => if isComparable v then some <$> sameCosine r v else return none
        | .call .sin v =>
          if isComparable v then some <$> (do r.sub (← halfPi r) (← sameSine r v))
          else return none
        | _ => return none

def arctangent (r : Rules) (u : Form) : Result (Option Form) := do
  match u with
  | .number .undefined => return some Form.undefined
  | .number (.infinite negative) =>
    some <$> Angle.multiple r (if negative then mkRat (-1) 2 else mkRat 1 2)
  | .unsigned => return some (.foreign "AccumBounds" [])
  | u =>
    if u.isZero then return some Form.zero
    else if u == Form.one then some <$> Angle.multiple r (mkRat 1 4)
    else if u.leansNegative then some <$> (do r.neg (← r.call .atan (← r.neg u)))
    else
      match angleOf? Float.tan u with
      | some q => some <$> Angle.multiple r q
      | none =>
        match u with
        | .call .tan v =>
          if isComparable v then
            let w ← reduce r 1 v
            if exceeds w (Complex.pi / 2.0) then some <$> r.sub w Form.pi else return some w
          else return none
        | _ => return none

/-! ## The rule -/

def ofFloat (r : Rules) (op : UnaryOp) (x : Binary) : Result Form :=
  if op == .exp then .ok (.number (.float x.exp))
  else
    match Form.functionValue? op (.ofReal x.toFloat) with
    | none => .ok (.call op (.number (.approximate x)))
    | some z =>
      let part (v : Float) : Form := .number (.float ((Binary.ofFloat v).rounded x.precision))
      if z.im == 0.0 then .ok (part z.re)
      else do
        let im ← r.product [part z.im, .imaginary]
        r.sum [part z.re, im]

def known (r : Rules) (op : UnaryOp) (u : Form) : Result (Option Form) :=
  match op with
  | .neg => some <$> r.neg u
  | .sqrt => some <$> r.sqrt u
  | .sin => Angle.sine? r u
  | .cos => Angle.cosine r u
  | .tan => Angle.tangent r u
  | .cot => Angle.cotangent r u
  | .sec | .csc => Angle.reciprocal? r op u
  | .exp => exponential r u
  | .ln => logarithm r u
  | .asin => arcsine r u
  | .acos => arccosine r u
  | .atan => arctangent r u

/-- A function of a comparison has no value; the exponential of one is
left as it is. -/
def rule (r : Rules) (op : UnaryOp) (u : Form) : Result Form :=
  if u.isLogical && !(op == .exp || op == .neg || op == .sqrt) then .error .noAlgebra
  else do
    match ← known r op u with
    | some v => return v
    | none =>
      match u with
      | .number (.approximate x) => ofFloat r op x
      | u => return .call op u

/-- The logarithm to a base: whole powers of the base are taken out. -/
def logarithmTo (r : Rules) (b u : Form) : Result Form :=
  if b == Form.one then .ok (if u == Form.one then Form.undefined else .unsigned)
  else
    match b.int?, u.int? with
    | some m, some n =>
      if 1 < m && n != 0 then do
        let d := Integer.divideOut m.natAbs (n.natAbs.log2 + 1) n.natAbs
        let k := d.1
        let rest ← r.call .ln (Form.int (n / (Nat.pow m.natAbs k : Nat)))
        let l ← r.call .ln b
        let v ← r.div rest l
        r.sum [Form.int k, v]
      else plain
    | _, _ => plain
where
  plain : Result Form := do
    let v ← r.call .ln u
    if b == .constant .e then return v
    else r.div v (← r.call .ln b)

end Fluxion.Algebra.Function
