/-
The families of orthogonal polynomials, by their recurrences. A polynomial
is the list of its coefficients, the constant one first.
-/
namespace Fluxion.Algebra.Orthogonal

def sum : List Rat → List Rat → List Rat
  | [], g => g
  | f, [] => f
  | a :: f, b :: g => Rat.add a b :: sum f g

def scale (c : Rat) (f : List Rat) : List Rat := f.map (Rat.mul c)

/-- A polynomial times the variable. -/
def shift (f : List Rat) : List Rat := Rat.ofInt 0 :: f

/-- A family by its second member and the recurrence
`p (n + 2) = (slope n * x + offset n) * p (n + 1) + back n * p n`; the first
member is one. -/
structure Family where
  second : List Rat
  slope : Nat → Rat
  offset : Nat → Rat
  back : Nat → Rat

namespace Family

/-- Two neighbours of a family. -/
def pairAt (f : Family) : Nat → List Rat × List Rat
  | 0 => ([Rat.ofInt 1], f.second)
  | n + 1 =>
    let p := pairAt f n
    let next := sum (scale (f.slope n) (shift p.2)) (scale (f.offset n) p.2)
    (p.2, sum next (scale (f.back n) p.1))

/-- The member of degree `n`. -/
def member (f : Family) (n : Nat) : List Rat := (f.pairAt n).1

end Family

def chebyshev (second : Int) : Family :=
  ⟨[Rat.ofInt 0, Rat.ofInt second], fun _ => Rat.ofInt 2, fun _ => Rat.ofInt 0,
    fun _ => Rat.ofInt (-1)⟩

def legendre : Family :=
  ⟨[Rat.ofInt 0, Rat.ofInt 1], fun n => mkRat (2 * n + 3) (n + 2), fun _ => Rat.ofInt 0,
    fun n => mkRat (-(n + 1 : Int)) (n + 2)⟩

def hermite (scale : Nat) : Family :=
  ⟨[Rat.ofInt 0, Rat.ofInt scale], fun _ => Rat.ofInt scale, fun _ => Rat.ofInt 0,
    fun n => Rat.ofInt (-(scale * (n + 1) : Int))⟩

def laguerre : Family :=
  ⟨[Rat.ofInt 1, Rat.ofInt (-1)], fun n => mkRat (-1) (n + 2), fun n => mkRat (2 * n + 3) (n + 2),
    fun n => mkRat (-(n + 1 : Int)) (n + 2)⟩

def family? (name : String) : Option Family :=
  match name with
  | "chebyshevt" => some (chebyshev 1)
  | "chebyshevu" => some (chebyshev 2)
  | "legendre" => some legendre
  | "hermite" => some (hermite 2)
  | "hermite_prob" => some (hermite 1)
  | "laguerre" => some laguerre
  | _ => none

end Fluxion.Algebra.Orthogonal
