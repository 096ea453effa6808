/-
Reading a number from text: an optional sign, digits with an optional
point and exponent, single underscores allowed between digits, or one of
the words for the infinities and for not-a-number in any case. Digits of
any script will do. Blanks around it are ignored, but the ASCII separators
are none here.
-/
import Fluxion.Decimal.Layout
import Fluxion.Text.Blank
import Fluxion.Text.Digit

namespace Fluxion.Decimal

/-- Digits in which an underscore stands only between two digits; the
digits without underscores and the rest of the text. -/
def takeDigits : List Char → List Char × List Char
  | c :: '_' :: d :: rest =>
    if c.isDigit && d.isDigit then
      let r := takeDigits (d :: rest)
      (c :: r.1, r.2)
    else if c.isDigit then ([c], '_' :: d :: rest)
    else ([], c :: '_' :: d :: rest)
  | c :: rest =>
    if c.isDigit then
      let r := takeDigits rest
      (c :: r.1, r.2)
    else ([], c :: rest)
  | [] => ([], [])

def valueOf (ds : List Char) : Nat :=
  ds.foldl (fun n c => 10 * n + (c.toNat - 48)) 0

def takeSign : List Char → Bool × List Char
  | '-' :: rest => (true, rest)
  | '+' :: rest => (false, rest)
  | cs => (false, cs)

/-- An exponent part, or nothing when there is none. -/
def takeExponent : List Char → Option (Int × List Char)
  | [] => some (0, [])
  | c :: rest =>
    if c == 'e' || c == 'E' then
      let s := takeSign rest
      let d := takeDigits s.2
      if d.1.isEmpty then none
      else some (if s.1 then -(valueOf d.1 : Int) else valueOf d.1, d.2)
    else some (0, c :: rest)

/-- The fraction after a point, without the point. -/
def takeFraction : List Char → List Char × List Char
  | '.' :: rest => takeDigits rest
  | cs => ([], cs)

/-- A number without sign: whole and fractional digits and an exponent. -/
def readMagnitude? (negative : Bool) (cs : List Char) : Option Float :=
  let whole := takeDigits cs
  let fraction := takeFraction whole.2
  if whole.1.isEmpty && fraction.1.isEmpty then none
  else
    match takeExponent fraction.2 with
    | some (e, []) =>
      some (Double.ofDecimal negative (valueOf (whole.1 ++ fraction.1))
        (e - (fraction.1.length : Int)))
    | _ => none

/-- A blank that may stand around a number. -/
def isMargin (c : Char) : Bool := Text.isBlank c && !(Text.isSeparator c)

/-- The text of a number, its margins cut off and its digits in ASCII. -/
def normalized (text : String) : List Char :=
  Text.withPlainDigits (Text.trimmedOf isMargin text.toList)

def read? (text : String) : Option Float :=
  let s := takeSign (normalized text)
  let word := String.ofList (s.2.map Char.toLower)
  if word == "inf" || word == "infinity" then
    some (Double.make s.1 (Nat.pow 2 52) 972)
  else if word == "nan" then some Double.nan
  else readMagnitude? s.1 s.2

end Fluxion.Decimal
