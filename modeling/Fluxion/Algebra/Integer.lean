/-
Roots and divisors of natural numbers, as far as powers with a rational
exponent need them.
-/

namespace Fluxion.Algebra.Integer

/-- Halves the interval in which the root lies: `low^n ≤ m < high^n` is
kept. -/
def bisect (m n : Nat) : (fuel low high : Nat) → Nat
  | 0, low, _ => low
  | fuel + 1, low, high =>
    if high ≤ low + 1 then low
    else
      let mid := (low + high) / 2
      if Nat.pow mid n ≤ m then bisect m n fuel mid high else bisect m n fuel low mid

/-- The greatest `k` with `k^n ≤ m`, for `n` not zero. -/
def rootFloor (m n : Nat) : Nat :=
  let k := m.log2 / n + 1
  bisect m n (k + 1) 0 (Nat.pow 2 k)

def root? (m n : Nat) : Option Nat :=
  let k := rootFloor m n
  if Nat.pow k n == m then some k else none

def powerBelow (m : Nat) : (e : Nat) → Option (Nat × Nat)
  | 0 => none
  | 1 => none
  | e + 1 =>
    match root? m (e + 1) with
    | some k => some (k, e + 1)
    | none => powerBelow m e

/-- A number above one as a power with the greatest exponent above one. -/
def perfectPower? (m : Nat) : Option (Nat × Nat) := powerBelow m m.log2

/-- How often `d` divides `m`, and what is left; `fuel` has to reach the
number of bits of `m`. -/
def divideOut (d : Nat) : (fuel m : Nat) → Nat × Nat
  | 0, m => (0, m)
  | fuel + 1, m =>
    if m % d == 0 then
      let p := divideOut d fuel (m / d)
      (p.1 + 1, p.2)
    else (0, m)

/-- Trial division by `d` and what follows it, up to a limit; a cofactor
without a divisor below the limit is kept whole. -/
def divisorsFrom : (fuel d m : Nat) → List (Nat × Nat)
  | 0, _, m => if m == 1 then [] else [(m, 1)]
  | fuel + 1, d, m =>
    if m == 1 then []
    else if m < d * d then [(m, 1)]
    else
      let p := divideOut d (m.log2 + 1) m
      if p.1 == 0 then divisorsFrom fuel (d + 1) m
      else (d, p.1) :: divisorsFrom fuel (d + 1) p.2

def divisors (m : Nat) : List (Nat × Nat) := divisorsFrom 32768 2 m

def factorial : Nat → Nat
  | 0 => 1
  | n + 1 => (n + 1) * factorial n

end Fluxion.Algebra.Integer
