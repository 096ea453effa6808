/-
The shortest decimal that reads back as a given double. The reals that
round to `m · 2^q` form an interval whose ends belong to it when `m` is
even. For one, two, … seventeen digits the two neighbours of the value on
that decimal grid are tried; the first grid with a neighbour inside the
interval wins, and of two the nearer, a tie going to the even digit.
-/
import Fluxion.Double

namespace Fluxion

/-- The number `digits · 10^exponent`. -/
structure Decimal where
  digits : Nat
  exponent : Int

namespace Decimal

def powerLe (e : Int) (num den : Nat) : Bool :=
  if 0 ≤ e then den * Nat.pow 10 e.toNat ≤ num else den ≤ num * Nat.pow 10 (-e).toNat

/-- The exponent of the leading decimal digit of `num / den`. -/
def leading (num den : Nat) : Int :=
  let guess : Int := ((num.log2 : Int) - (den.log2 : Int)) * 30103 / 100000
  if powerLe (guess + 1) num den then guess + 1
  else if powerLe guess num den then guess
  else guess - 1

/-- `num / den` in units of `10^s`, as a quotient of naturals. -/
def inUnits (num den : Nat) (s : Int) : Nat × Nat :=
  if 0 ≤ s then (num, den * Nat.pow 10 s.toNat) else (num * Nat.pow 10 (-s).toNat, den)

/-- The interval of one double: its ends and its value over one
denominator, and whether the ends belong to it. -/
structure Interval where
  low : Nat
  value : Nat
  high : Nat
  den : Nat
  closed : Bool

/-- The reals that round to `m · 2^q`. -/
def Interval.of (m : Nat) (q : Int) : Interval :=
  let below := if m == Nat.pow 2 52 && (-1074 : Int) < q then 1 else 2
  let unit := if 2 ≤ q then Nat.pow 2 (q - 2).toNat else 1
  let den := if 2 ≤ q then 1 else Nat.pow 2 (2 - q).toNat
  { low := (4 * m - below) * unit
    value := 4 * m * unit
    high := (4 * m + 2) * unit
    den := den
    closed := m % 2 == 0 }

def Interval.contains (i : Interval) (c : Nat) (s : Int) : Bool :=
  let c' := if 0 ≤ s then c * Nat.pow 10 s.toNat * i.den else c * i.den
  let f := if 0 ≤ s then 1 else Nat.pow 10 (-s).toNat
  if i.closed then i.low * f ≤ c' && c' ≤ i.high * f else i.low * f < c' && c' < i.high * f

/-- The neighbour of the value on the grid of `10^s` that lies in the
interval, the nearer if both do. -/
def Interval.onGrid? (i : Interval) (s : Int) : Option Nat :=
  let u := inUnits i.value i.den s
  let c := u.1 / u.2
  let r := u.1 % u.2
  let down := i.contains c s
  let up := i.contains (c + 1) s
  if down && up then
    if 2 * r < u.2 then some c
    else if u.2 < 2 * r then some (c + 1)
    else if c % 2 == 0 then some c else some (c + 1)
  else if down then some c
  else if up then some (c + 1)
  else none

/-- The first grid of `k` digits or more with a hit; `tries` bounds how
many are looked at. -/
def Interval.search (i : Interval) (lead : Int) (k : Nat) : Nat → Decimal
  | 0 => ⟨i.value / i.den, 0⟩
  | tries + 1 =>
    let s := lead - (k : Int) + 1
    match i.onGrid? s with
    | some c => ⟨c, s⟩
    | none => i.search lead (k + 1) tries

/-- The shortest decimal that rounds to `m · 2^q`. -/
def shortest (m : Nat) (q : Int) : Decimal :=
  let i := Interval.of m q
  i.search (leading i.value i.den) 1 17

end Decimal

end Fluxion
