/-
The order in which a form is written out, which differs from the order in
which it is kept: in a sum the higher powers come first, in a product
symbols come before functions. It decides as well which of a sum and its
negative is the one with the sign taken out.
-/
import Fluxion.Algebra.Order
import Fluxion.Algebra.Value

namespace Fluxion.Algebra

/-- What two forms are compared by when they are written: a rank by kind,
the keys of the parts, the exponent, and last the coefficient. -/
inductive Key where
  | text (s : String)
  | node (rank place : Nat) (title : String) (parts exponent : List Key) (coefficient : Number)

namespace Key

def compareNumber (a b : Number) : Ordering :=
  if a.lt b then .lt else if b.lt a then .gt else .eq

mutual

def compare : Key → Key → Ordering
  | .text s, .text t => Form.compareText s t
  | .text _, .node _ _ _ _ _ _ => .lt
  | .node _ _ _ _ _ _, .text _ => .gt
  | .node r p t us e c, .node r' p' t' vs f d =>
    (Form.compareNat r r').then <|
    (Form.compareNat p p').then <|
    (Form.compareText t t').then <|
    (Form.compareNat us.length vs.length).then <|
    (compareAll us vs).then <|
    (compareAll e f).then (compareNumber c d)

def compareAll : List Key → List Key → Ordering
  | [], [] => .eq
  | [], _ :: _ => .lt
  | _ :: _, [] => .gt
  | a :: as, b :: bs => (compare a b).then (compareAll as bs)

end

def ofNumber (a : Number) : Key := .node 1 0 "Number" [] [] a

/-- Kinds by rank: numbers, names, operations, functions, all else. -/
def functionPlace (name : String) : Nat :=
  match name with
  | "exp" => 10
  | "log" => 11
  | "sin" => 20
  | "cos" => 21
  | "tan" => 22
  | "cot" => 23
  | "sinh" => 30
  | "cosh" => 31
  | "tanh" => 32
  | "coth" => 33
  | _ => 10000

def rank (u : Form) : Nat × Nat :=
  match u with
  | .number _ => (1, 0)
  | .unsigned | .constant _ | .imaginary | .symbol _ => (2, 0)
  | .product _ => (3, 0)
  | .sum _ => (3, 1)
  | .power _ _ => (3, 2)
  | .call _ _ | .foreign _ _ => (4, functionPlace u.title)
  | .cases _ _ => (4, 0)
  | .relate _ _ _ | .truth _ => (5, 0)

def title (u : Form) : String :=
  match u with
  | .number _ => "Number"
  | u => u.title

end Key

namespace Form

def atomText : Form → String
  | .number (.exact r) => if r.den == 1 then r.num.repr else r.num.repr ++ "/" ++ r.den.repr
  | .number a => a.toFloat.toString
  | .symbol x => x
  | u => u.title

/-- A term as a coefficient and whole powers of generators. -/
structure Monomial where
  term : Form
  value : Complex
  powers : List (Form × Int)

/-- A factor as a whole power of a generator: fractions and symbols of the
exponent stay with the generator. -/
def generator (u : Form) : Form × Int :=
  match u with
  | .power b (.number (.exact r)) =>
    (if r.den == 1 then b else .power b (ratio 1 r.den), r.num)
  | .power b (.product (.number (.exact r) :: rest)) =>
    (.power b (if r.den == 1 then rawProduct rest else .product (ratio 1 r.den :: rest)), r.num)
  | .call .exp (.number (.exact r)) =>
    (if r.den == 1 then .constant .e else exp (ratio 1 r.den), r.num)
  | .call .exp (.product (.number (.exact r) :: rest)) =>
    (exp (if r.den == 1 then rawProduct rest else .product (ratio 1 r.den :: rest)), r.num)
  | u => (u, 1)

def monomial (u : Form) : Monomial :=
  u.factors.foldl
    (fun m f =>
      match if f.isNumeric then f.constantValue? else none with
      | some z => { m with value := m.value.mul z }
      | none => { m with powers := m.powers ++ [generator f] })
    ⟨u, .one, []⟩

/-- Higher powers of the first generator first, then of the next. -/
def compareMonomials (generators : List Form) (a b : Monomial) : Ordering :=
  let exponent (m : Monomial) (g : Form) : Int :=
    match m.powers.find? fun p => p.1 == g with
    | some p => p.2
    | none => 0
  let powers := generators.foldl
    (fun o g => o.then (compareInt (exponent b g) (exponent a g))) Ordering.eq
  let compareFloat (x y : Float) : Ordering := if x < y then .lt else if y < x then .gt else .eq
  powers.then <|
    (compareFloat a.value.im b.value.im).then (compareFloat a.value.re b.value.re)

def distinct : List Form → List Form
  | [] => []
  | u :: us => if us.any (· == u) then distinct us else u :: distinct us

/-- A positive number less a multiple is written in that order. -/
def numberFirst? (us : List Form) : Option (List Form) :=
  match us with
  | [a, b] =>
    let isNamed (u : Form) : Bool := match u with | .number _ | .constant _ => true | _ => false
    let p := if isNamed a then (a, b) else (b, a)
    match p.2 with
    | .product [.number c, _] =>
      if isNamed p.1 && p.1.isPositive && c.isNegative then some [p.1, p.2] else none
    | _ => none
  | _ => none

/-- The terms of a sum as they are written, by the keys of generators. -/
def arrange (key : Form → Key) (us : List Form) : List Form :=
  match numberFirst? us with
  | some vs => vs
  | none =>
    let ms := us.map monomial
    let gs := (distinct (ms.flatMap fun m => m.powers.map Prod.fst)).map fun g => (key g, g)
    let generators := (gs.mergeSort fun a b => Key.compare a.1 b.1 != .gt).map Prod.snd
    (ms.mergeSort fun a b => compareMonomials generators a b != .gt).map Monomial.term

def arrangeFactors (key : Form → Key) (us : List Form) : List Form :=
  let ks := us.map fun u => (key u, u)
  (ks.mergeSort fun a b => Key.compare a.1 b.1 != .gt).map Prod.snd

/-- The key of a form; `fuel` has to reach its depth. -/
def keyWith : (fuel : Nat) → Form → Key
  | 0, _ => .text ""
  | fuel + 1, u =>
    match u with
    | .number a => .ofNumber a
    | u =>
      let c := u.coefficient
      let p := match c.2 with
        | .power b e => (b, e)
        | v => (v, one)
      let parts := match p.1 with
        | .sum us => (arrange (keyWith fuel) us).map (keyWith fuel)
        | .product us => (arrangeFactors (keyWith fuel) us).map (keyWith fuel)
        | v =>
          match v.parts with
          | [] => [.text v.atomText]
          | vs => vs.map (keyWith fuel)
      .node (Key.rank p.1).1 (Key.rank p.1).2 (Key.title p.1) parts [keyWith fuel p.2] c.1

def key (u : Form) : Key := keyWith (u.size + 2) u

/-- The terms of a form in the order in which they are written. -/
def writtenTerms : Form → List Form
  | .sum us => arrange key us
  | u => [u]

def writtenFactors : Form → List Form
  | .product us => arrangeFactors key us
  | u => [u]

/-! ## The sign of a form -/

/-- A sum with all signs turned. -/
def turned : Form → Form
  | .sum us => .sum (us.map negated)
  | u => u.negated

mutual

/-- Whether a form is written with a sign in front: a negative number or
coefficient, or a sum in which negative terms are the more, or, if they are
as many, one that comes before its negative. -/
def leansNegative : Form → Bool
  | .number a => a.isNegative
  | .product (.number a :: _) => a.isNegative
  | .sum us =>
    let n := negatives us
    if us.length < 2 * n then true
    else if 2 * n < us.length then false
    else Key.compare (key (.sum us)) (key (turned (.sum us))) == .lt
  | _ => false

def negatives : List Form → Nat
  | [] => 0
  | u :: us => (if leansNegative u then 1 else 0) + negatives us

end

end Form

end Fluxion.Algebra
