/-
Algebraic forms: what a tree becomes when sums and products are flat,
like terms are collected and numbers are exact. A sum or product holds all
of its terms; division is a power with a negative exponent and subtraction
a term with a negative coefficient.

The constructors put no condition on their parts. A form in which nothing
is left to combine is built by the rules of `Algebra.Rules`; a form built
directly stays as it is written.
-/
import Fluxion.Algebra.Number
import Fluxion.Operator

namespace Fluxion.Algebra

/-- Irrational constants with a name. -/
inductive Constant where
  | pi
  | e
  | goldenRatio
  | eulerGamma
  | catalan
  | tribonacci
deriving DecidableEq

namespace Constant

def toFloat : Constant → Float
  | .pi => 3.141592653589793
  | .e => 2.718281828459045
  | .goldenRatio => 1.618033988749895
  | .eulerGamma => 0.5772156649015329
  | .catalan => 0.915965594177219
  | .tribonacci => 1.8392867552141612

end Constant

inductive Form where
  | number (a : Number)
  /-- The infinity without a direction. -/
  | unsigned
  | constant (c : Constant)
  | imaginary
  | symbol (name : String)
  | sum (terms : List Form)
  | product (factors : List Form)
  | power (base exponent : Form)
  | call (op : UnaryOp) (argument : Form)
  /-- A function that expression trees do not have. -/
  | foreign (name : String) (arguments : List Form)
  | relate (rel : Relation) (left right : Form)
  | truth (value : Bool)
  /-- The value at the first condition that holds. -/
  | cases (values conditions : List Form)

namespace Form

def int (n : Int) : Form := .number (.ofInt n)
def ratio (n : Int) (d : Nat) : Form := .number (.ratio n d)
def rational (r : Rat) : Form := .number (.exact r)
def zero : Form := .number .zero
def one : Form := .number .one
def two : Form := int 2
def minusOne : Form := .number .minusOne
def half : Form := .number .half
def pi : Form := .constant .pi
def undefined : Form := .number .undefined
def exp (u : Form) : Form := .call .exp u

/-! ## Equality -/

mutual

/-- Equality part by part. -/
def same : Form → Form → Bool
  | .number a, .number b => a == b
  | .unsigned, .unsigned => true
  | .constant a, .constant b => a == b
  | .imaginary, .imaginary => true
  | .symbol x, .symbol y => x == y
  | .sum as, .sum bs => sameAll as bs
  | .product as, .product bs => sameAll as bs
  | .power b e, .power b' e' => same b b' && same e e'
  | .call f u, .call g v => f == g && same u v
  | .foreign f us, .foreign g vs => f == g && sameAll us vs
  | .relate r l m, .relate s l' m' => r == s && same l l' && same m m'
  | .truth a, .truth b => a == b
  | .cases vs cs, .cases vs' cs' => sameAll vs vs' && sameAll cs cs'
  | _, _ => false

def sameAll : List Form → List Form → Bool
  | [], [] => true
  | a :: as, b :: bs => same a b && sameAll as bs
  | _, _ => false

end

instance : BEq Form := ⟨same⟩

/-! ## Parts -/

mutual

/-- Whether no symbol occurs. -/
def isNumeric : Form → Bool
  | .number _ | .unsigned | .constant _ | .imaginary => true
  | .symbol _ | .relate _ _ _ | .truth _ | .cases _ _ => false
  | .sum us | .product us | .foreign _ us => allNumeric us
  | .power b e => isNumeric b && isNumeric e
  | .call _ u => isNumeric u

def allNumeric : List Form → Bool
  | [] => true
  | u :: us => isNumeric u && allNumeric us

end

mutual

/-- The names of the symbols, left to right, repeats kept. -/
def names : Form → List String
  | .number _ | .unsigned | .constant _ | .imaginary | .truth _ => []
  | .symbol x => [x]
  | .sum us | .product us | .foreign _ us => allNames us
  | .power b e => names b ++ names e
  | .call _ u => names u
  | .relate _ l r => names l ++ names r
  | .cases vs cs => allNames vs ++ allNames cs

def allNames : List Form → List String
  | [] => []
  | u :: us => names u ++ allNames us

end

mutual

/-- The number of parts, which bounds every walk over a form. -/
def size : Form → Nat
  | .number _ | .unsigned | .constant _ | .imaginary | .truth _ | .symbol _ => 1
  | .sum us | .product us | .foreign _ us => 1 + totalSize us
  | .power b e => 1 + size b + size e
  | .call _ u => 1 + size u
  | .relate _ l r => 1 + size l + size r
  | .cases vs cs => 1 + totalSize vs + totalSize cs

def totalSize : List Form → Nat
  | [] => 0
  | u :: us => size u + totalSize us

end

/-- The parts directly below. -/
def parts : Form → List Form
  | .sum us | .product us | .foreign _ us => us
  | .power b e => [b, e]
  | .call _ u => [u]
  | .relate _ l r => [l, r]
  | .cases vs cs => vs ++ cs
  | _ => []

/-- The terms of a sum; anything else is one term. -/
def terms : Form → List Form
  | .sum us => us
  | u => [u]

/-- The factors of a product; anything else is one factor. -/
def factors : Form → List Form
  | .product us => us
  | u => [u]

/-- A sum as it stands, without combining anything. -/
def rawSum : List Form → Form
  | [] => zero
  | [u] => u
  | us => .sum us

/-- A product as it stands, without combining anything. -/
def rawProduct : List Form → Form
  | [] => one
  | [u] => u
  | us => .product us

/-- A leading number and what it multiplies. -/
def coefficient : Form → Number × Form
  | .number a => if a.isZero then (.one, .number a) else (a, one)
  | .product (.number a :: rest) => (a, rawProduct rest)
  | u => (.one, u)

/-- Base and exponent. The power of a unit fraction is read as one of its
denominator, and the exponential as a power of its base. -/
def baseExponent (negate : Form → Form) : Form → Form × Form
  | .power (.number (.exact r)) e =>
    if r.num == 1 && r.den != 1 then (int r.den, negate e) else (.number (.exact r), e)
  | .power b e => (b, e)
  | .call .exp u => (.constant .e, u)
  | u => (u, one)

def isNumber : Form → Bool
  | .number _ => true
  | _ => false

def isExact : Form → Bool
  | .number (.exact _) => true
  | _ => false

def isSum : Form → Bool
  | .sum _ => true
  | _ => false

def isProduct : Form → Bool
  | .product _ => true
  | _ => false

def isPower : Form → Bool
  | .power _ _ => true
  | _ => false

/-- A comparison or a truth value. -/
def isLogical : Form → Bool
  | .relate _ _ _ | .truth _ => true
  | .foreign f _ => f == "And" || f == "Or" || f == "Not"
  | _ => false

/-- A sign in front of a form, put there without combining anything but
numbers. -/
def negated : Form → Form
  | .number a => .number a.neg
  | .product (.number a :: rest) =>
    if a.neg == .one then rawProduct rest else .product (.number a.neg :: rest)
  | .product (.unsigned :: rest) => .product (.unsigned :: rest)
  | .product us => .product (minusOne :: us)
  | u => .product [minusOne, u]

end Form

end Fluxion.Algebra
