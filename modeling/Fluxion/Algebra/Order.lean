/-
The order in which the terms of a sum and the factors of a product stand.
Forms are compared by their kind first, then by how many parts they have,
then part by part. Kinds come in a fixed list, from the exact numbers over
symbols to powers, products and sums; a kind that is not in the list comes
after all that are, by name.
-/
import Fluxion.Algebra.Form
import Fluxion.Tree

namespace Fluxion.Algebra

namespace Form

/-- The name of a function as it is written. -/
def functionName : UnaryOp → String
  | .ln => "log"
  | op => op.symbol

/-- The name of the kind of a form. -/
def title : Form → String
  | .number (.exact r) =>
    if r.den == 1 then
      if r.num == 0 then "Zero"
      else if r.num == 1 then "One"
      else if r.num == -1 then "NegativeOne"
      else "Integer"
    else if r.num == 1 && r.den == 2 then "Half"
    else "Rational"
  | .number (.approximate _) => "Float"
  | .number (.infinite negative) => if negative then "NegativeInfinity" else "Infinity"
  | .number .undefined => "NaN"
  | .unsigned => "ComplexInfinity"
  | .constant .pi => "Pi"
  | .constant .e => "Exp1"
  | .constant .goldenRatio => "GoldenRatio"
  | .constant .eulerGamma => "EulerGamma"
  | .constant .catalan => "Catalan"
  | .constant .tribonacci => "TribonacciConstant"
  | .imaginary => "ImaginaryUnit"
  | .symbol _ => "Symbol"
  | .sum _ => "Add"
  | .product _ => "Mul"
  | .power _ _ => "Pow"
  | .call op _ => functionName op
  | .foreign name _ => name
  | .relate .eq _ _ => "Equality"
  | .relate .ne _ _ => "Unequality"
  | .relate .gt _ _ => "StrictGreaterThan"
  | .relate .lt _ _ => "StrictLessThan"
  | .relate .ge _ _ => "GreaterThan"
  | .relate .le _ _ => "LessThan"
  | .truth b => if b then "BooleanTrue" else "BooleanFalse"
  | .cases _ _ => "Piecewise"

/-- The kinds that have a place of their own. -/
def kinds : List String :=
  ["Zero", "One", "Half", "Infinity", "NaN", "NegativeOne", "NegativeInfinity", "Integer",
    "Rational", "Float", "Exp1", "Pi", "ImaginaryUnit", "Symbol", "Pow", "Mul", "Add", "Abs",
    "factorial", "binomial", "Equality", "Unequality", "StrictGreaterThan", "StrictLessThan",
    "GreaterThan", "LessThan"]

def place (title : String) : Nat := kinds.findIdx fun k => k == title

def compareNat (a b : Nat) : Ordering :=
  if a < b then .lt else if b < a then .gt else .eq

def compareInt (a b : Int) : Ordering :=
  if a < b then .lt else if b < a then .gt else .eq

def compareText (a b : String) : Ordering :=
  if a == b then .eq else if Tree.precedes a.toList b.toList then .lt else .gt

def compareTitle (a b : String) : Ordering :=
  if a == b then .eq
  else
    match compareNat (place a) (place b) with
    | .eq => compareText a b
    | o => o

/-- Numbers of one kind: by sign, significand and exponent, or by
numerator and denominator. -/
def compareNumber : Number → Number → Ordering
  | .exact a, .exact b => (compareInt a.num b.num).then (compareNat a.den b.den)
  | .approximate a, .approximate b =>
    (compareNat (if a.isNegative then 1 else 0) (if b.isNegative then 1 else 0)).then
      ((compareNat a.m.natAbs b.m.natAbs).then (compareInt a.q b.q))
  | _, _ => .eq

mutual

def compare (a b : Form) : Ordering :=
  (compareTitle a.title b.title).then
    (match a, b with
    | .number x, .number y => compareNumber x y
    | .symbol x, .symbol y => compareText x y
    | .sum us, .sum vs | .product us, .product vs | .foreign _ us, .foreign _ vs =>
      (compareNat us.length vs.length).then (compareAll us vs)
    | .power u e, .power v f => (compare u v).then (compare e f)
    | .call _ u, .call _ v => compare u v
    | .relate _ l r, .relate _ l' r' => (compare l l').then (compare r r')
    | .cases us cs, .cases vs ds =>
      (compareNat us.length vs.length).then ((compareAll us vs).then (compareAll cs ds))
    | _, _ => .eq)

def compareAll : List Form → List Form → Ordering
  | a :: as, b :: bs => (compare a b).then (compareAll as bs)
  | _, _ => .eq

end

/-- Parts in the order in which they stand. -/
def sorted (us : List Form) : List Form := us.mergeSort fun a b => compare a b != .gt

end Form

end Fluxion.Algebra
