/-
Functions of whole numbers with exact values: the numbers that count
arrangements, the numbers of Fibonacci, Bernoulli and Euler, and the
functions of divisibility.
-/
import Fluxion.Algebra.Integer
import Fluxion.Algebra.Number

namespace Fluxion.Algebra.Counting

open Integer

/-! ## Arrangements -/

/-- The product of every second number down from `n`. -/
def everySecond : Nat → Nat
  | 0 => 1
  | 1 => 1
  | n + 2 => (n + 2) * everySecond n

/-- The product of `k` numbers from `q` on, one step apart. -/
def rising (q : Rat) : Nat → Rat
  | 0 => Rat.ofInt 1
  | k + 1 => Rat.mul (rising q k) (Rat.add q (Rat.ofInt k))

def falling (q : Rat) : Nat → Rat
  | 0 => Rat.ofInt 1
  | k + 1 => Rat.mul (falling q k) (Rat.sub q (Rat.ofInt k))

def choose (n : Rat) (k : Nat) : Rat := Rat.div (falling n k) (Rat.ofInt (factorial k : Nat))

def chooseNat (n k : Nat) : Nat := (choose (Rat.ofInt n) k).num.natAbs

/-- The number of arrangements that leave nothing in its place. -/
def derangements : Nat → Nat
  | 0 => 1
  | 1 => 0
  | n + 2 => (n + 1) * (derangements (n + 1) + derangements n)

/-- One row of the triangle whose first column counts partitions of sets. -/
def nextRow (row : List Nat) : List Nat :=
  row.foldl (fun acc k => acc ++ [acc.getLastD 0 + k]) [row.getLastD 1]

def rowAt : Nat → List Nat
  | 0 => [1]
  | n + 1 => nextRow (rowAt n)

/-- The number of partitions of a set of `n`. -/
def bell (n : Nat) : Nat := (rowAt n).headD 1

def catalan (n : Nat) : Nat := chooseNat (2 * n) n / (n + 1)

/-- The number of ways to draw chords between `n` points without
crossings. -/
def motzkin (n : Nat) : Nat :=
  (List.range (n / 2 + 1)).foldl (fun s k => s + chooseNat n (2 * k) * catalan k) 0

/-- Counts sums of parts up to `part` from counts of sums of smaller ones. -/
def withPart (part : Nat) (counts : List Nat) : List Nat :=
  (counts.foldl
    (fun (acc : List Nat) c => acc ++ [c + (if acc.length < part then 0
      else (acc[acc.length - part]?).getD 0)])
    [])

def partitions (n : Nat) : Nat :=
  ((List.range n).foldl (fun cs k => withPart (k + 1) cs)
    (1 :: List.replicate n 0)).getLastD 1

/-! ## Recurrences -/

/-- Two neighbours of a sequence in which each number is the sum of the two
before it. -/
def pairAt (a b : Int) : Nat → Int × Int
  | 0 => (a, b)
  | n + 1 =>
    let p := pairAt a b n
    (p.2, p.1 + p.2)

/-- The sign that turns a sequence round to negative positions. -/
def alternating (k : Int) : Int := if k % 2 == 0 then 1 else -1

def fibonacci (n : Int) : Int :=
  let f := (pairAt 0 1 n.natAbs).1
  if n < 0 then alternating (n.natAbs + 1) * f else f

def lucas (n : Int) : Int :=
  let f := (pairAt 2 1 n.natAbs).1
  if n < 0 then alternating n * f else f

def tribonacci (n : Nat) : Nat :=
  ((List.range n).foldl (fun (s : Nat × Nat × Nat) _ => (s.2.1, s.2.2, s.1 + s.2.1 + s.2.2))
    (0, 1, 1)).1

/-- Bernoulli's numbers up to `n`, the second of them minus a half. -/
def bernoullis : Nat → List Rat
  | 0 => [Rat.ofInt 1]
  | n + 1 =>
    let bs := bernoullis n
    let m := n + 2
    let s := (bs.zipIdx).foldl
      (fun acc p => Rat.add acc (Rat.mul (Rat.ofInt (chooseNat m p.2 : Nat)) p.1)) (Rat.ofInt 0)
    bs ++ [Rat.div (Rat.neg s) (Rat.ofInt m)]

/-- Bernoulli's numbers; the second is a half. -/
def bernoulli (n : Nat) : Rat :=
  if n == 1 then mkRat 1 2 else (bernoullis n).getLastD (Rat.ofInt 0)

/-- Euler's numbers at even positions, up to the `n`-th of them. -/
def eulers : Nat → List Int
  | 0 => [1]
  | n + 1 =>
    let es := eulers n
    let m := 2 * (n + 1)
    es ++ [-((es.zipIdx).foldl (fun acc p => acc + (chooseNat m (2 * p.2) : Int) * p.1) 0)]

def euler (n : Nat) : Int := if n % 2 == 1 then 0 else (eulers (n / 2)).getLastD 0

def harmonic (n order : Nat) : Rat :=
  (List.range n).foldl (fun s k => Rat.add s (mkRat 1 (Nat.pow (k + 1) order))) (Rat.ofInt 0)

def genocchi (n : Nat) : Rat :=
  let b := (bernoullis n).getLastD (Rat.ofInt 0)
  Rat.mul (Rat.ofInt (2 * (1 - (Nat.pow 2 n : Nat)))) (if n == 1 then mkRat 1 2 else b)

/-! ## Divisibility -/

/-- A power modulo `m`; `fuel` has to reach the bits of the exponent. -/
def powMod (m : Nat) : (fuel b e : Nat) → Nat
  | 0, _, _ => 1 % m
  | fuel + 1, b, e =>
    if e == 0 then 1 % m
    else
      let h := powMod m fuel (b * b % m) (e / 2)
      if e % 2 == 1 then b * h % m else h

/-- Squares a number until it is one less than the modulus. -/
def reaches (m : Nat) : (fuel x : Nat) → Bool
  | 0, _ => false
  | fuel + 1, x => x == m - 1 || reaches m fuel (x * x % m)

/-- Whether a base does not show that an odd number is composite. -/
def passes (n : Nat) (b : Nat) : Bool :=
  let d := divideOut 2 (n.log2 + 1) (n - 1)
  let x := powMod n (n.log2 + 2) (b % n) d.2
  b % n == 0 || x == 1 || reaches n d.1 x

def isPrime (n : Nat) : Bool :=
  if n < 2 then false
  else if n < 4 then true
  else if n % 2 == 0 then false
  else [2, 3, 5, 7, 11, 13, 17, 19, 23, 29, 31, 37].all (passes n)

/-- The first prime from `n` on; `fuel` bounds the search. -/
def primeFrom : (fuel n : Nat) → Nat
  | 0, n => n
  | fuel + 1, n => if isPrime n then n else primeFrom fuel (n + 1)

def nextPrime (n : Nat) : Nat := primeFrom (n + 2) (n + 1)

def previousPrime? : Nat → Option Nat
  | 0 => none
  | n + 1 => if isPrime n then some n else previousPrime? n

def prime : Nat → Nat
  | 0 => 1
  | n + 1 => nextPrime (prime n)

def primesUpTo (n : Nat) : Nat := (List.range (n + 1)).countP isPrime

def primorial : Nat → Nat
  | 0 => 1
  | n + 1 => prime (n + 1) * primorial n

def factorization (n : Nat) : List (Nat × Nat) := divisorsFrom 1000000 2 n

def totient (n : Nat) : Nat :=
  (factorization n).foldl (fun t p => t * (Nat.pow p.1 (p.2 - 1) * (p.1 - 1))) 1

def moebius (n : Nat) : Int :=
  let ps := factorization n
  if ps.any fun p => 1 < p.2 then 0 else alternating ps.length

/-- The sum of the `k`-th powers of all divisors. -/
def divisorSum (n k : Nat) : Nat :=
  (factorization n).foldl
    (fun s p => s * (List.range (p.2 + 1)).foldl (fun t i => t + Nat.pow p.1 (i * k)) 0) 1

/-- All divisors in increasing order. -/
def divisorsOf (n : Nat) : List Nat :=
  ((factorization n).foldl
    (fun ds p => ds.flatMap fun d => (List.range (p.2 + 1)).map fun i => d * Nat.pow p.1 i)
    [1]).mergeSort fun a b => decide (a ≤ b)

/-! ## Bits -/

/-- How many bits hold a number and its sign. -/
def width (a b : Int) : Nat := a.natAbs.log2 + b.natAbs.log2 + 3

/-- An operation on the bits of two numbers, negative ones continued by
ones without end. -/
def bitwise (op : Nat → Nat → Nat) (a b : Int) : Int :=
  let m : Nat := Nat.pow 2 (width a b)
  let r := op (a % (m : Int)).toNat (b % (m : Int)).toNat
  if m ≤ 2 * r then (r : Int) - m else r

end Fluxion.Algebra.Counting
