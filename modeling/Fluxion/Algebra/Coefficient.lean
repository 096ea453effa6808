/-
Forms as polynomials in one symbol, with coefficients that are forms
themselves: the coefficients, sums over a range of whole numbers, and the
roots of polynomials of low degree.
-/
import Fluxion.Algebra.Differential

namespace Fluxion.Algebra.Form

/-! ## Coefficients -/

/-- The exponent of the symbol in a term and what it is multiplied by. -/
def termDegree? (x : String) (u : Form) : Option (Nat × List Form) :=
  u.factors.foldr
    (fun f acc => do
      let (n, rest) ← acc
      if !(f.mentions x) then some (n, f :: rest)
      else
        match f with
        | .symbol _ => some (n + 1, rest)
        | .power (.symbol y) e =>
          match e.int? with
          | some k => if y == x && 0 ≤ k then some (n + k.toNat, rest) else none
          | none => none
        | _ => none)
    (some (0, []))

/-- The coefficients of a polynomial, the constant one first. -/
def coefficients? (x : String) (u : Form) : Result (Option (List Form)) := do
  let v ← u.expand
  match v.terms.mapM (termDegree? x) with
  | none => return none
  | some ts =>
    let degree := ts.foldl (fun n t => if n < t.1 then t.1 else n) 0
    let cs ← (List.range (degree + 1)).mapM fun k => do
      rules.sum (← (ts.filter fun t => t.1 == k).mapM fun t => rules.product t.2)
    return some cs

/-- The coefficient of a power of a form in an expanded sum: what its power
is multiplied by, term by term. -/
def coefficientOf (u v n : Form) : Result Form := do
  if n == zero then
    let free := u.terms.filter fun t => !(t.factors.any fun f => (f.baseExponent negated).1 == v)
    rules.sum free
  else
    let target ← rules.power v n
    let parts := u.terms.filterMap fun t =>
      if t.factors.any (· == target) then some (t.factors.filter fun f => !(f == target)) else none
    rules.sum (← parts.mapM rules.product)

/-! ## Sums and products over a range -/

/-- The sum of the `k`-th powers of the first `n` numbers, as a form in
`n`. -/
def powerSum (k : Nat) (n : Form) : Result Form := do
  let terms ← (List.range (k + 1)).mapM fun j => do
    let b := if j == 1 then mkRat 1 2 else Counting.bernoulli j
    let c := Rat.div (Rat.mul (Rat.ofInt (Counting.chooseNat (k + 1) j : Nat)) b)
      (Rat.ofInt (k + 1 : Nat))
    rules.product [rational c, ← rules.power n (int (k + 1 - j : Nat))]
  rules.sum terms

def valuesFrom (u : Form) (i : String) (start : Int) (count : Nat) : Result (List Form) :=
  (List.range count).mapM fun (k : Nat) => u.replaced (.symbol i) (int (start + (k : Int)))

def alongRange? (u : Form) (i : String) (a b : Form) (combine : List Form → Result Form) :
    Option (Result Form) :=
  match a.int?, b.int? with
  | some m, some n =>
    if n - m < 5000 then
      some (do combine (← valuesFrom u i m (n - m + 1).toNat))
    else none
  | _, _ => none

/-- A sum over a range: term by term where its length is known, else of a
polynomial, or of an inverse power to infinity. -/
def summed (u : Form) (i : String) (a b : Form) : Result Form := do
  let kept := Form.foreign "Sum" [u, .symbol i, a, b]
  match alongRange? u i a b rules.sum with
  | some r => r
  | none =>
    if b == .number (.infinite false) then
      match u with
      | .power (.symbol _) e =>
        match e.int? with
        | some k => if a == one && k < -1 then Library.zeta (int (-k)) else return kept
        | none => return kept
      | _ => return kept
    else
      match ← coefficients? i u with
      | none => return kept
      | some cs =>
        let before ← rules.sub a one
        let parts ← cs.zipIdx.mapM fun p => do
          let upper ← powerSum p.2 b
          let lower ← powerSum p.2 before
          rules.mul p.1 (← rules.sub upper lower)
        expand (← rules.sum parts)

def multiplied (u : Form) (i : String) (a b : Form) : Result Form :=
  match alongRange? u i a b rules.product with
  | some r => r
  | none => .ok (.foreign "Product" [u, .symbol i, a, b])

/-! ## Roots -/

def quadraticRoots (a b c : Form) : Result (List Form) := do
  let d ← rules.sqrt (← rules.sub (← rules.square b) (← rules.product [int 4, a, c]))
  let below ← rules.mul two a
  let nb ← rules.neg b
  let root (s : Form) : Result Form := do expand (← rules.div s below)
  let r ← root (← rules.sub nb d)
  let s ← root (← rules.add nb d)
  return if r == s then [r] else [r, s]

/-- Roots in increasing order, those that are not real last. -/
def inOrder (us : List Form) : List Form :=
  us.mergeSort fun u v =>
    match u.realValue?, v.realValue? with
    | some x, some y => decide (x ≤ y)
    | some _, none => true
    | none, some _ => false
    | none, none => true

def roots (x : String) (u : Form) : Result (List Form) := do
  let f ← u.factor
  let parts := f.factors.filter fun v => v.mentions x
  let found ← parts.mapM fun v => do
    let base := match v with
      | .power b e => if e.isNegative then one else b
      | v => v
    match ← coefficients? x base with
    | some [c, b] => do return [← rules.neg (← rules.div c b)]
    | some [c, b, a] => quadraticRoots a b c
    | _ => return []
  return inOrder (Library.distinct (found.foldl (· ++ ·) []))

end Fluxion.Algebra.Form
