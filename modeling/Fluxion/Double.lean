/-
Double precision taken apart and put together exactly. A finite double is
`± m · 2^q` with natural `m`; `ofRatio` rounds a quotient of naturals to
the nearest double, a tie going to the even significand, and answers an
infinity beyond the range.
-/

namespace Fluxion.Double

/-- A double as a sign, a significand and a power of two. -/
inductive Parts where
  | nan
  | infinite (negative : Bool)
  | finite (negative : Bool) (m : Nat) (q : Int)

def parts (x : Float) : Parts :=
  let w := x.toBits.toNat
  let negative := w / Nat.pow 2 63 == 1
  let e := w / Nat.pow 2 52 % Nat.pow 2 11
  let f := w % Nat.pow 2 52
  if e == 2047 then
    if f == 0 then .infinite negative else .nan
  else if e == 0 then .finite negative f (-1074)
  else .finite negative (f + Nat.pow 2 52) ((e : Int) - 1075)

/-- The double `± m · 2^q` for `m ≤ 2^53` with `m` full or `q` least;
beyond the range an infinity. -/
def make (negative : Bool) (m : Nat) (q : Int) : Float :=
  let sign := if negative then Nat.pow 2 63 else 0
  let magnitude :=
    if m < Nat.pow 2 52 then m
    else ((q + 1075).toNat) * Nat.pow 2 52 + (m - Nat.pow 2 52)
  let infinity := 2047 * Nat.pow 2 52
  Float.ofBits (UInt64.ofNat (sign + (if infinity ≤ magnitude then infinity else magnitude)))

/-- The quotient of two naturals rounded to a natural, ties to even. -/
def roundDiv (num den : Nat) : Nat :=
  let q := num / den
  let r := num % den
  if 2 * r < den then q
  else if den < 2 * r then q + 1
  else if q % 2 == 0 then q else q + 1

/-- `num / (den · 2^q)` as a quotient of naturals. -/
def scaled (num den : Nat) (q : Int) : Nat × Nat :=
  if 0 ≤ q then (num, den * Nat.pow 2 q.toNat) else (num * Nat.pow 2 (-q).toNat, den)

/-- The unit exponent of the double nearest to `num / den`. -/
def unitExponent (num den : Nat) : Int :=
  let guess : Int := (num.log2 : Int) - (den.log2 : Int) - 52
  let s := scaled num den guess
  let q := if s.1 / s.2 < Nat.pow 2 52 then guess - 1 else guess
  if q < -1074 then -1074 else q

/-- The double nearest to `± num / den`, ties to even. -/
def ofRatio (negative : Bool) (num den : Nat) : Float :=
  if num == 0 then make negative 0 0
  else
    let q := unitExponent num den
    if 972 ≤ q then make negative (Nat.pow 2 52) 972
    else
      let s := scaled num den q
      make negative (roundDiv s.1 s.2) q

/-- The double nearest to `± m · 10^e`. An exponent far outside the range
is answered without forming the power. -/
def ofDecimal (negative : Bool) (m : Nat) (e : Int) : Float :=
  let magnitude := (m.log2 : Int) * 3 / 10 + e
  if m == 0 then make negative 0 0
  else if 330 < magnitude then make negative (Nat.pow 2 52) 972
  else if magnitude < -400 then make negative 0 0
  else if 0 ≤ e then ofRatio negative (m * Nat.pow 10 e.toNat) 1
  else ofRatio negative m (Nat.pow 10 (-e).toNat)

def ofInt (n : Int) : Float := ofRatio (decide (n < 0)) n.natAbs 1

def nan : Float := 0.0 / 0.0

def toInt (x : Float) : Int :=
  match parts x with
  | .finite negative m q =>
    let n : Nat := if 0 ≤ q then m * Nat.pow 2 q.toNat else m / Nat.pow 2 (-q).toNat
    if negative then -(n : Int) else n
  | _ => 0

/-- The double read as an exact quotient, with its sign. -/
def toRatio? (x : Float) : Option (Bool × Nat × Nat) :=
  match parts x with
  | .finite negative m q =>
    if 0 ≤ q then some (negative, m * Nat.pow 2 q.toNat, 1)
    else some (negative, m, Nat.pow 2 (-q).toNat)
  | _ => none

def isInteger (x : Float) : Bool :=
  match parts x with
  | .finite _ m q => decide (0 ≤ q) || m % Nat.pow 2 (-q).toNat == 0
  | _ => false

end Fluxion.Double
