/-
Factors of polynomials: powers of generators, the content in each
generator, repeated factors, and, where only one generator or two of the
same degree are left, linear and quadratic factors with rational
coefficients. A factor in which none of these is found is kept whole.
-/
import Fluxion.Algebra.Poly

namespace Fluxion.Algebra.Poly

/-! ## One generator -/

def divisorsOf (n : Nat) : List Nat :=
  ((List.range (if n < 2000 then n else 2000)).map (· + 1)).filter fun d => n % d == 0

def coefficientAt (f : Poly) (d : Nat) : Rat :=
  match f.find? fun t => t.1 == [d] with
  | some t => t.2
  | none => Rat.ofInt 0

def signedBoth (n : Nat) : List Int := [(n : Int), -(n : Int)]

/-- Linear factors that may divide a polynomial with whole coefficients. -/
def linearCandidates (f : Poly) : List Poly :=
  let top := (coefficientAt f (degree f)).num.natAbs
  let last := (coefficientAt f 0).num.natAbs
  (divisorsOf top).flatMap fun (a : Nat) => (divisorsOf last).flatMap fun (b : Nat) =>
    (signedBoth b).map fun (b : Int) => [([1], Rat.ofInt (a : Int)), ([0], Rat.ofInt b)]

/-- Quadratic factors that may divide one, their middle coefficient small. -/
def quadraticCandidates (f : Poly) : List Poly :=
  let top := (coefficientAt f (degree f)).num.natAbs
  let last := (coefficientAt f 0).num.natAbs
  (divisorsOf top).flatMap fun (a : Nat) => (divisorsOf last).flatMap fun (c : Nat) =>
    (signedBoth c).flatMap fun (c : Int) => (List.range 41).map fun (b : Nat) =>
      insert [1] (Rat.ofInt ((b : Int) - 20)) [([2], Rat.ofInt (a : Int)), ([0], Rat.ofInt c)]

/-- Takes factors of one generator out; `fuel` has to reach the degree. -/
def factorSingle : (fuel : Nat) → Poly → List Poly
  | 0, f => [f]
  | fuel + 1, f =>
    if degree f ≤ 1 then [f]
    else
      let attempt (cs : List Poly) : Option (Poly × Poly) :=
        cs.findSome? fun c => (divide? f c).map fun q => (c, q)
      match attempt (linearCandidates f) with
      | some (c, q) => c :: factorSingle fuel (primitive q)
      | none =>
        if degree f ≤ 3 then [f]
        else
          match attempt (quadraticCandidates f) with
          | some (c, q) => c :: factorSingle fuel (primitive q)
          | none => [f]

/-! ## Several generators -/

def totalDegree (e : List Nat) : Nat := e.foldl (· + ·) 0

/-- Whether all terms have the same degree in two generators. -/
def isHomogeneous (f : Poly) : Bool :=
  match f with
  | [] => false
  | t :: rest => t.1.length == 2 && rest.all fun s => totalDegree s.1 == totalDegree t.1

/-- Sets the second generator to one. -/
def dehomogenize (f : Poly) : Poly :=
  f.foldl (fun acc t => insert [t.1.headD 0] t.2 acc) []

def homogenize (f : Poly) : Poly :=
  let d := degree f
  f.map fun t => ([t.1.headD 0, d - t.1.headD 0], t.2)

def occurring (f : Poly) : List Nat :=
  match f with
  | [] => []
  | t :: _ => (List.range t.1.length).filter fun i => f.any fun s => s.1[i]?.getD 0 != 0

/-- The polynomial in some of its generators only, the first of them in
front. -/
def restrict (is : List Nat) (f : Poly) : Poly :=
  f.foldl (fun acc t => insert (is.map fun i => t.1[i]?.getD 0) t.2 acc) []

def extend (n : Nat) (is : List Nat) (f : Poly) : Poly :=
  f.foldl
    (fun acc t =>
      let e := (List.range n).map fun i =>
        match (is.zip t.1).find? fun p => p.1 == i with
        | some p => p.2
        | none => 0
      insert e t.2 acc)
    []

/-- Factors of a polynomial in which every one of `n` generators occurs and
which has no power of one as a factor; `fuel` has to reach its degree. -/
def factorFull : (fuel n : Nat) → Poly → List Poly
  | 0, _, f => [f]
  | fuel + 1, n, f =>
    let g := gcd n f (derivative f)
    if !(isConstant g) then factorSome fuel n g ++ factorSome fuel n (primitive (divide f g))
    else if n == 1 then factorSingle (degree f) f
    else
      let c := content n f
      if !(isConstant c) then
        factorSome fuel n (lift c) ++ factorSome fuel n (primitive (divide f (lift c)))
      else if isHomogeneous f then (factorSingle (degree f) (dehomogenize f)).map homogenize
      else
        -- the content in another generator
        match (List.range n).findSome? fun i =>
          let order := i :: (List.range n).filter (· != i)
          let h := restrict order f
          let c := content n h
          if isConstant c then none else some (extend n order (lift c)) with
        | some c => factorSome fuel n c ++ factorSome fuel n (primitive (divide f c))
        | none => [f]
where
  factorSome (fuel n : Nat) (f : Poly) : List Poly :=
    let is := occurring f
    if is.isEmpty then []
    else (factorFull fuel is.length (restrict is f)).map (extend n is)

def factor (n : Nat) (f : Poly) : Rat × List (Poly × Nat) :=
  if f.isEmpty then (Rat.ofInt 0, [])
  else
    let c := numericContent f
    let p := primitive f
    let shared := commonExponents p
    let monomials := (List.range n).filterMap fun i =>
      let k := shared[i]?.getD 0
      if k == 0 then none
      else some ([((List.range n).map fun j => if j == i then 1 else 0, Rat.ofInt 1)], k)
    let rest := divide p [(shared, Rat.ofInt 1)]
    let is := occurring rest
    let found := if is.isEmpty then []
      else ((factorFull (rest.foldl (fun d t => d + totalDegree t.1) 8) is.length
        (restrict is rest)).map (extend n is)).map primitive
    let counted := found.foldl
      (fun (acc : List (Poly × Nat)) g =>
        if acc.any fun p => p.1 == g then
          acc.map fun p => if p.1 == g then (p.1, p.2 + 1) else p
        else acc ++ [(g, 1)])
      []
    -- signs lost in making factors primitive
    let all := monomials ++ counted
    let product := all.foldl (fun acc q => mul acc (pow n q.1 q.2)) (one n)
    let sign := match product, p with
      | t :: _, s :: _ => Rat.div s.2 t.2
      | _, _ => Rat.ofInt 1
    (Rat.mul c sign, all)

end Fluxion.Algebra.Poly
