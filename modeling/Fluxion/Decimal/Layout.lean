/-
How a double is written. `plain` gives the shortest digits that read back,
positionally from 0.0001 up to sixteen places before the point and with an
exponent elsewhere. `scientific` gives a fixed number of significant
digits with an exponent. `general` gives at most so many digits, without
trailing zeros, in whichever of the two notations is shorter to read.
-/
import Fluxion.Decimal.Shortest

namespace Fluxion.Decimal

def digitsOf (n : Nat) : List Char := Nat.toDigits 10 n

def stripZeros (ds : List Char) : List Char :=
  (ds.reverse.dropWhile fun c => c == '0').reverse

def zeros (n : Nat) : List Char := List.replicate n '0'

/-- An exponent with its sign and at least two digits. -/
def exponentText (e : Int) : List Char :=
  let ds := digitsOf e.natAbs
  ['e', if e < 0 then '-' else '+'] ++ (if ds.length < 2 then '0' :: ds else ds)

/-- The digits `ds` with the point after the first `point` of them. -/
def positional (ds : List Char) (point : Int) : List Char :=
  if point ≤ 0 then ['0', '.'] ++ zeros (-point).toNat ++ ds
  else if (ds.length : Int) ≤ point then ds ++ zeros (point.toNat - ds.length)
  else ds.take point.toNat ++ '.' :: ds.drop point.toNat

/-- The digits `ds` with the point after the first and an exponent. -/
def withExponent (ds : List Char) (e : Int) : List Char :=
  match ds with
  | [] => []
  | [d] => d :: exponentText e
  | d :: rest => d :: '.' :: rest ++ exponentText e

def signed (negative : Bool) (cs : List Char) : String :=
  String.ofList (if negative then '-' :: cs else cs)

/-- The shortest spelling that reads back as the same double. -/
def plain (x : Float) : String :=
  match Double.parts x with
  | .nan => "nan"
  | .infinite negative => signed negative "inf".toList
  | .finite negative 0 _ => signed negative "0.0".toList
  | .finite negative m q =>
    let d := shortest m q
    let all := digitsOf d.digits
    let point := (all.length : Int) + d.exponent
    let ds := stripZeros all
    if -4 < point && point ≤ 16 then
      let body := positional ds point
      signed negative (if (ds.length : Int) ≤ point then body ++ ['.', '0'] else body)
    else signed negative (withExponent ds (point - 1))

/-- `num / den` rounded to `n` digits, ties to even, with the exponent of
the first digit. -/
def toDigits (num den n : Nat) : List Char × Int :=
  let lead := leading num den
  let u := inUnits num den (lead - (n : Int) + 1)
  let c := Double.roundDiv u.1 u.2
  if Nat.pow 10 n ≤ c then (digitsOf (c / 10), lead + 1) else (digitsOf c, lead)

/-- `n + 1` significant digits and an exponent. -/
def scientific (n : Nat) (x : Float) : String :=
  match Double.parts x with
  | .nan => "nan"
  | .infinite negative => signed negative "inf".toList
  | .finite negative m q =>
    if m == 0 then signed negative (withExponent (zeros (n + 1)) 0)
    else
      let r := if 0 ≤ q then (m * Nat.pow 2 q.toNat, 1) else (m, Nat.pow 2 (-q).toNat)
      let d := toDigits r.1 r.2 (n + 1)
      signed negative (withExponent d.1 d.2)

/-- At most `n` significant digits, trailing zeros dropped; positional
from 0.0001 up to `n` places before the point. -/
def general (n : Nat) (x : Float) : String :=
  match Double.parts x with
  | .nan => "nan"
  | .infinite negative => signed negative "inf".toList
  | .finite negative m q =>
    if m == 0 then signed negative ['0']
    else
      let r := if 0 ≤ q then (m * Nat.pow 2 q.toNat, 1) else (m, Nat.pow 2 (-q).toNat)
      let d := toDigits r.1 r.2 n
      let ds := stripZeros d.1
      if -4 ≤ d.2 && d.2 < n then signed negative (positional ds (d.2 + 1))
      else signed negative (withExponent ds d.2)

/-- The spelling of a number in an expression: an integral value below
10^15 has no point, and all else is `plain`. -/
def literalText (x : Float) : String :=
  if Double.isInteger x && x.abs < 1e15 then (Double.toInt x).repr else plain x

end Fluxion.Decimal
