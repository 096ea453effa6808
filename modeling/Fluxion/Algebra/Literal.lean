/-
Numbers as they are written, digit by digit: to base ten with a fraction
and an exponent, or whole to a base that a letter behind a zero announces.
Single underscores may stand between digits.

A number is as long as it can be and no longer. What only looks like the
beginning of an exponent or of a base is left to what follows, and so is
an underscore with no digit behind it: `1_x` is a number and a name. Zeros
in front of a whole number are a number of their own.
-/
import Fluxion.Decimal.Reader

namespace Fluxion.Algebra

/-- A number as it is written, digit by digit. -/
structure Literal where
  base : Nat
  whole : List Nat
  fraction : Option (List Nat)
  /-- The exponent of ten, where there is one. -/
  scale : Option Int
  imaginary : Bool
deriving DecidableEq

namespace Literal

def ofNat (n : Nat) : Literal := ⟨10, [n], none, none, false⟩

def digitsValue (base : Nat) (ds : List Nat) : Nat := ds.foldl (fun n d => base * n + d) 0

/-- A decimal: a point or an exponent makes a number inexact. -/
def isDecimal (n : Literal) : Bool := n.fraction.isSome || n.scale.isSome

def isDigits (n : Literal) : Bool := n.base == 10 && !n.isDecimal && !n.imaginary

def isPointed (n : Literal) : Bool := n.fraction.isSome && n.scale.isNone && !n.imaginary

/-- A whole number to base ten other than zero has no leading zeros, and
not too many digits. -/
def isWritable (n : Literal) : Bool :=
  n.base != 10 || n.isDecimal ||
    (n.whole.length ≤ 4300 && (n.whole.head? != some 0 || digitsValue 10 n.whole == 0))

/-- The digits of a decimal, leading zeros left out. -/
def significant (n : Literal) : List Nat :=
  (n.whole ++ n.fraction.getD []).dropWhile fun d => d == 0

/-- The value of a decimal; its exponent is cut where no number of any use
is left. -/
def toRat (n : Literal) : Rat :=
  let fraction := n.fraction.getD []
  let m := digitsValue n.base (n.whole ++ fraction)
  let e := n.scale.getD 0 - (fraction.length : Int)
  let k := if e < -20000 then -20000 else if 20000 < e then 20000 else e
  if 0 ≤ k then Rat.ofInt (m * Nat.pow 10 k.toNat : Nat) else mkRat m (Nat.pow 10 (-k).toNat)

/-- How many digits a decimal is kept to: at least fifteen, at least those
that are written, and without a point all of a whole value. -/
def digitsKept (n : Literal) : Nat :=
  let q := n.toRat
  let written := Nat.max 15 n.significant.length
  if n.fraction.isNone && q.den == 1 then Nat.max written q.num.natAbs.repr.length else written

/-! ## Reading -/

/-- The value of a digit; too large for any base where there is none. -/
def digitValue (c : Char) : Nat :=
  if c.isDigit then c.toNat - 48
  else if c.isLower then c.toNat - 87
  else if c.isUpper then c.toNat - 55
  else 99

/-- Digits to a base, a single underscore in front of any of them
skipped. -/
def takeBased (base : Nat) : List Char → List Nat × List Char
  | '_' :: d :: rest =>
    if digitValue d < base then
      let r := takeBased base rest
      (digitValue d :: r.1, r.2)
    else ([], '_' :: d :: rest)
  | d :: rest =>
    if digitValue d < base then
      let r := takeBased base rest
      (digitValue d :: r.1, r.2)
    else ([], d :: rest)
  | [] => ([], [])

/-- Digits to base ten, the first of them without an underscore. -/
def takeDigits (cs : List Char) : List Nat × List Char :=
  if cs.head?.any Char.isDigit then takeBased 10 cs else ([], cs)

def takeFraction : List Char → Option (List Nat) × List Char
  | '.' :: rest =>
    let d := takeDigits rest
    (some d.1, d.2)
  | cs => (none, cs)

def takeScale : List Char → Option Int × List Char
  | [] => (none, [])
  | c :: rest =>
    let signed := Decimal.takeSign rest
    let d := takeDigits signed.2
    if (c != 'e' && c != 'E') || d.1.isEmpty then (none, c :: rest)
    else
      let n : Int := digitsValue 10 d.1
      (some (if signed.1 then -n else n), d.2)

def takeDecimal (cs : List Char) : Literal × List Char :=
  let whole := takeDigits cs
  let fraction := takeFraction whole.2
  let scale := takeScale fraction.2
  (⟨10, whole.1, fraction.1, scale.1, false⟩, scale.2)

def baseOf (c : Char) : Option Nat :=
  match c.toLower with
  | 'x' => some 16
  | 'o' => some 8
  | 'b' => some 2
  | _ => none

/-- What follows a leading zero: digits to the base that is announced, or
further zeros. -/
def takeAfterZero (cs : List Char) : Literal × List Char :=
  let based := cs.head?.bind fun c => (baseOf c).map fun b => (b, takeBased b (cs.drop 1))
  match based with
  | some (b, d :: ds, rest) => (⟨b, d :: ds, none, none, false⟩, rest)
  | _ =>
    let zeros := takeBased 1 cs
    (⟨10, 0 :: zeros.1, none, none, false⟩, zeros.2)

def take (cs : List Char) : Literal × List Char :=
  let n := takeDecimal cs
  match n.2, cs with
  | 'j' :: rest, _ | 'J' :: rest, _ => ({ n.1 with imaginary := true }, rest)
  | _, '0' :: rest => if n.1.isDecimal then n else takeAfterZero rest
  | _, _ => n

/-- The decimal that a text spells: there is a digit, and nothing else
follows. -/
def ofDecimal? (cs : List Char) : Option Literal :=
  match takeDecimal cs with
  | (n, []) => if n.whole.isEmpty && (n.fraction.getD []).isEmpty then none else some n
  | _ => none

end Literal

end Fluxion.Algebra
