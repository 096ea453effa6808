/-
Polynomials with rational coefficients in a fixed number of generators,
as lists of terms: exponents, one for each generator, and a coefficient
that is not zero. Terms stand in lexicographic order, the highest first.

Greatest common divisors are taken generator by generator: a polynomial is
read as one in its first generator whose coefficients are polynomials in
the others.
-/

namespace Fluxion.Algebra

abbrev Poly := List (List Nat × Rat)

namespace Poly

def compareExponents : List Nat → List Nat → Ordering
  | [], [] => .eq
  | [], _ :: _ => .lt
  | _ :: _, [] => .gt
  | a :: as, b :: bs =>
    if a < b then .lt else if b < a then .gt else compareExponents as bs

/-- Adds one term. -/
def insert (e : List Nat) (c : Rat) : Poly → Poly
  | [] => if c.num == 0 then [] else [(e, c)]
  | t :: rest =>
    match compareExponents e t.1 with
    | .gt => if c.num == 0 then t :: rest else (e, c) :: t :: rest
    | .eq =>
      let s := Rat.add c t.2
      if s.num == 0 then rest else (e, s) :: rest
    | .lt => t :: insert e c rest

/-- A constant among `n` generators. -/
def constant (n : Nat) (c : Rat) : Poly := if c.num == 0 then [] else [(List.replicate n 0, c)]

def one (n : Nat) : Poly := constant n (Rat.ofInt 1)

def add (f g : Poly) : Poly := g.foldl (fun acc t => insert t.1 t.2 acc) f

def scale (c : Rat) (f : Poly) : Poly :=
  if c.num == 0 then [] else f.map fun t => (t.1, Rat.mul c t.2)

def neg (f : Poly) : Poly := scale (Rat.ofInt (-1)) f
def sub (f g : Poly) : Poly := add f (neg g)

def addExponents : List Nat → List Nat → List Nat
  | a :: as, b :: bs => (a + b) :: addExponents as bs
  | _, _ => []

def mulTerm (e : List Nat) (c : Rat) (f : Poly) : Poly :=
  f.map fun t => (addExponents e t.1, Rat.mul c t.2)

def mul (f g : Poly) : Poly := f.foldl (fun acc t => add acc (mulTerm t.1 t.2 g)) []

def pow (n : Nat) (f : Poly) : Nat → Poly
  | 0 => one n
  | k + 1 => mul f (pow n f k)

/-- Exponents less those of a divisor. -/
def divExponents? : List Nat → List Nat → Option (List Nat)
  | a :: as, b :: bs => if a < b then none else (divExponents? as bs).map ((a - b) :: ·)
  | _, _ => some []

/-- The quotient where the division leaves nothing; `fuel` has to reach the
number of its terms. -/
def divideFrom (g : Poly) : (fuel : Nat) → Poly → Option Poly
  | _, [] => some []
  | 0, _ => none
  | fuel + 1, t :: rest =>
    match g with
    | [] => none
    | l :: _ =>
      match divExponents? t.1 l.1 with
      | none => none
      | some e =>
        let c := Rat.div t.2 l.2
        match divideFrom g fuel (sub (t :: rest) (mulTerm e c g)) with
        | none => none
        | some q => some (insert e c q)

def divide? (f g : Poly) : Option Poly := divideFrom g 4000 f

/-- The quotient by a divisor. -/
def divide (f g : Poly) : Poly := (divide? f g).getD f

/-! ## The first generator -/

def degree : Poly → Nat
  | [] => 0
  | t :: _ => t.1.headD 0

/-- The coefficients of the powers of the first generator. -/
def split (f : Poly) : List (Nat × Poly) :=
  f.foldr
    (fun t acc =>
      let d := t.1.headD 0
      match acc with
      | (k, g) :: rest =>
        if k == d then (k, (t.1.tail, t.2) :: g) :: rest else (d, [(t.1.tail, t.2)]) :: acc
      | [] => [(d, [(t.1.tail, t.2)])])
    []

/-- A polynomial in the other generators. -/
def lift (f : Poly) : Poly := f.map fun t => (0 :: t.1, t.2)

def shift (d : Nat) (f : Poly) : Poly := f.map fun t => (d :: t.1, t.2)

def leading (f : Poly) : Poly :=
  match split f with
  | p :: _ => p.2
  | [] => []

/-- The remainder in the first generator, up to a factor without it. -/
def pseudoRemainder (g : Poly) : (fuel : Nat) → Poly → Poly
  | 0, f => f
  | fuel + 1, f =>
    if f.isEmpty || degree f < degree g then f
    else
      let top := shift (degree f - degree g) (leading f)
      pseudoRemainder g fuel (sub (mul (lift (leading g)) f) (mul top g))

/-! ## Numbers in front -/

/-- The number in front of a polynomial, with the sign of the first term:
what is left has whole coefficients without a common divisor. -/
def numericContent (f : Poly) : Rat :=
  match f with
  | [] => Rat.ofInt 1
  | t :: _ =>
    let g := f.foldl (fun g t => Nat.gcd g t.2.num.natAbs) 0
    let l := f.foldl (fun l t => Nat.lcm l t.2.den) 1
    mkRat (if t.2.num < 0 then -(g : Int) else g) l

def primitive (f : Poly) : Poly := scale (Rat.inv (numericContent f)) f

/-! ## Greatest common divisors -/

/-- Euclid's algorithm on polynomials without content; `part` takes the
content out of a remainder. -/
def euclid (n : Nat) (part : Poly → Poly) : (fuel : Nat) → Poly → Poly → Poly
  | 0, _, _ => one n
  | fuel + 1, f, g =>
    if g.isEmpty then f
    else if degree g == 0 then one n
    else euclid n part fuel g (part (pseudoRemainder g (degree f + 1) f))

/-- The greatest common divisor in `n` generators. -/
def gcd : (n : Nat) → Poly → Poly → Poly
  | 0, f, g => if f.isEmpty && g.isEmpty then [] else one 0
  | n + 1, f, g =>
    if f.isEmpty then primitive g
    else if g.isEmpty then primitive f
    else
      let content (h : Poly) : Poly := (split h).foldl (fun c p => gcd n c p.2) []
      let part (h : Poly) : Poly :=
        if h.isEmpty then [] else primitive (divide h (lift (content h)))
      let shared := gcd n (content f) (content g)
      let a := part f
      let b := part g
      let p := if degree a < degree b then euclid (n + 1) part (degree b + 2) b a
        else euclid (n + 1) part (degree a + 2) a b
      primitive (mul (lift shared) p)

/-- The greatest common divisor of the coefficients of the powers of the
first generator. -/
def content (n : Nat) (f : Poly) : Poly :=
  (split f).foldl (fun c p => gcd (n - 1) c p.2) []

def derivative (f : Poly) : Poly :=
  (f.filter fun t => 0 < t.1.headD 0).map fun t =>
    let d := t.1.headD 0
    ((d - 1) :: t.1.tail, Rat.mul (Rat.ofInt d) t.2)

def isConstant (f : Poly) : Bool := f.all fun t => t.1.all (· == 0)

/-- The exponents that all terms share. -/
def commonExponents : Poly → List Nat
  | [] => []
  | t :: rest => rest.foldl
      (fun acc s => (acc.zip s.1).map fun p => if p.2 < p.1 then p.2 else p.1) t.1

end Poly

end Fluxion.Algebra
