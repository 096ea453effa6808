/-
Forms as functions of numbers. A compiled function takes its arguments by
position and computes as the formula is written, from left to right. There
are three kinds of numbers in it: whole ones, which are exact; plain ones in
double precision; and those that came out of a library function. Division
by zero, a root of a negative number and an overflowing power are faults
for the first two, and infinite or undefined values for the last. An
operation has the last kind that one of its operands has, and a quotient of
whole numbers is plain.

Every branch of a choice is computed before one is chosen.
-/
import Fluxion.Algebra.Conversion
import Fluxion.Operand

namespace Fluxion.Algebra

inductive Quantity where
  | whole (n : Int)
  | plain (x : Float)
  | computed (x : Float)

namespace Quantity

/-- The number in double precision, infinite if it is too large. -/
def value : Quantity → Float
  | .whole n => Double.ofInt n
  | .plain x | .computed x => x

/-- The number in double precision; a whole one has to be in range. -/
def toFloat (a : Quantity) : Result Float :=
  match a with
  | .whole n =>
    let x := Double.ofInt n
    if x.isFinite then .ok x else .error .integerTooLarge
  | .plain x | .computed x => .ok x

def isComputed : Quantity → Bool
  | .computed _ => true
  | _ => false

def ofOperand : Operand Float → Result Quantity
  | .whole n => .ok (.whole n)
  | .truth b => .ok (.whole (if b then 1 else 0))
  | o => Quantity.plain <$> o.number

/-- An operation in double precision without faults of its own. -/
def lift (f : Float → Float → Float) (a b : Quantity) : Result Quantity := do
  let x ← a.toFloat
  let y ← b.toFloat
  return if a.isComputed || b.isComputed then .computed (f x y) else .plain (f x y)

def add : Quantity → Quantity → Result Quantity
  | .whole m, .whole n => .ok (.whole (m + n))
  | a, b => lift (· + ·) a b

def mul : Quantity → Quantity → Result Quantity
  | .whole m, .whole n => .ok (.whole (m * n))
  | a, b => lift (· * ·) a b

def div : Quantity → Quantity → Result Quantity
  | .whole m, .whole n =>
    if n == 0 then .error .zeroDivision
    else
      let x := Double.ofRatio (decide (m < 0) != decide (n < 0)) m.natAbs n.natAbs
      if x.isFinite then .ok (.plain x) else .error .integerTooLarge
  | a, b =>
    if !a.isComputed && !b.isComputed && b.value == 0.0 then .error .zeroDivision
    else lift (· / ·) a b

def floatPow (a b : Quantity) : Result Quantity := do
  let x ← a.toFloat
  let y ← b.toFloat
  let r := Float.pow x y
  if a.isComputed || b.isComputed then return .computed r
  else if x == 0.0 && y < 0.0 then throw .zeroDivision
  else if x < 0.0 && x.isFinite && y.floor != y then throw .mixedLogic
  else if x.isFinite && y.isFinite && !r.isFinite then throw .integerTooLarge
  else return .plain r

def pow : Quantity → Quantity → Result Quantity
  | .whole m, .whole n =>
    if n < 0 then floatPow (.whole m) (.whole n)
    else if 10000000 < (m.natAbs.log2 + 1) * n.toNat && 1 < m.natAbs then .error .integerTooLarge
    else .ok (.whole (Int.pow m n.toNat))
  | a, b => floatPow a b

/-- A library function; whole numbers have to fit into a machine word. -/
def call (op : UnaryOp) (a : Quantity) : Result Quantity :=
  match a with
  | .whole n =>
    if n < -9223372036854775808 || 18446744073709551615 < n then .error .mixedLogic
    else .ok (.computed (Double.unary op a.value))
  | a => .ok (.computed (Double.unary op a.value))

/-- Whether a comparison holds; whole numbers are compared exactly. -/
def holds (rel : Relation) : Quantity → Quantity → Bool
  | .whole m, .whole n => Double.holds rel (Double.ofInt (m - n)) 0.0
  | a, b => Double.holds rel a.value b.value

def sum : List Quantity → Result Quantity
  | [] => .ok (.whole 0)
  | a :: as => as.foldlM add a

def product : List Quantity → Result Quantity
  | [] => .ok (.whole 1)
  | a :: as => as.foldlM mul a

end Quantity

namespace Compiled

abbrev Environment := List (String × Quantity)

/-- The values of forms, put into the order in which the forms are
written. -/
def inOrder (written us : List Form) (as : List Quantity) : List (Form × Quantity) :=
  let pairs := us.zip as
  written.filterMap fun u => pairs.find? fun p => p.1 == u

/-- Whether a factor stands below the line: a power with a negative
rational exponent. -/
def isBelow : Form → Bool
  | .power _ (.number (.exact q)) => decide (q.num < 0)
  | _ => false

/-- A power by a rational exponent, roots taken by their function. -/
def rationalPow (x : Quantity) (q : Rat) : Result Quantity :=
  if q == mkRat 1 2 then x.call .sqrt
  else if q.den == 1 then
    if q.num == 1 then .ok x else x.pow (.whole q.num)
  else do x.pow (← (Quantity.whole q.num).div (.whole q.den))

def quotient (factors : List (Form × Quantity)) : Result Quantity := do
  let above ← Quantity.product ((factors.filter fun p => !isBelow p.1).map Prod.snd)
  let below := (factors.filter fun p => isBelow p.1).map Prod.snd
  if below.isEmpty then return above else above.div (← Quantity.product below)

mutual

def evaluate (env : Environment) : Form → Result Quantity
  | .number (.exact q) =>
    if q.den == 1 then .ok (.whole q.num) else (Quantity.whole q.num).div (.whole q.den)
  | .number a => .ok (.plain a.toFloat)
  | .unsigned => .ok (.plain Double.nan)
  | .constant c => .ok (.plain c.toFloat)
  | .imaginary => .error .mixedLogic
  | .symbol x =>
    match env.find? fun p => p.1 == x with
    | some p => .ok p.2
    | none => .error .unknownName
  | .sum us => do
    let as ← evaluateAll env us
    Quantity.sum ((inOrder (Form.writtenTerms (.sum us)) us as).map Prod.snd)
  | .product us => do
    let as ← evaluateFactors env us
    quotient (inOrder (Form.writtenFactors (.product us)) us as)
  | .power b e => do
    let x ← evaluate env b
    match e with
    | .number (.exact q) =>
      if q == mkRat (-1) 2 then (Quantity.whole 1).div (← x.call .sqrt)
      else if q.den == 1 && q.num < 0 then x.pow (.plain (Double.ofInt q.num))
      else rationalPow x q
    | e => do
      let y ← evaluate env e
      x.pow y
  | .call op u => do
    let x ← evaluate env u
    match op with
    | .sec => (← x.call .cos).pow (.plain (-1.0))
    | .csc => (← x.call .sin).pow (.plain (-1.0))
    | .cot => (← x.call .tan).pow (.plain (-1.0))
    | op => x.call op
  | .foreign _ _ => .error .unknownName
  | .relate rel l r => do
    let x ← evaluate env l
    let y ← evaluate env r
    return .computed (if x.holds rel y then 1.0 else 0.0)
  | .truth b => .ok (.plain (if b then 1.0 else 0.0))
  | .cases vs cs => do
    let tests ← evaluateAll env cs
    let values ← evaluateAll env vs
    match (tests.zip values).find? fun p => p.1.value != 0.0 with
    | some p => return .computed p.2.value
    | none => return .computed Double.nan

def evaluateAll (env : Environment) : List Form → Result (List Quantity)
  | [] => .ok []
  | u :: us => do
    let x ← evaluate env u
    let xs ← evaluateAll env us
    return x :: xs

/-- The values of factors; one that stands below the line is turned
over. -/
def evaluateFactors (env : Environment) : List Form → Result (List Quantity)
  | [] => .ok []
  | .power b (.number (.exact q)) :: us => do
    let x ← evaluate env b
    let y ← rationalPow x (if q.num < 0 then Rat.neg q else q)
    let ys ← evaluateFactors env us
    return y :: ys
  | u :: us => do
    let x ← evaluate env u
    let xs ← evaluateFactors env us
    return x :: xs

end

/-- The value of a form at arguments given by position. -/
def call (names : List String) (u : Form) (args : List Quantity) : Result Float :=
  if names.length != args.length then .error .argumentCount
  else do (← evaluate (names.zip args) u).toFloat

end Compiled

end Fluxion.Algebra

namespace Fluxion

/-- The value of a tree compiled to a function of the given names, which
are its variables in order if none are given. -/
def Tree.compiledValue (t : Tree Float) (names? : Option (List String))
    (args : List (Operand Float)) : Algebra.Result Float := do
  let as ← args.mapM Algebra.Quantity.ofOperand
  let u ← t.toForm
  Algebra.Compiled.call (names?.getD t.distinctNames) u as

end Fluxion
