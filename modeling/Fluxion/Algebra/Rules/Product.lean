/-
Products: nested products are opened, numbers are multiplied up, powers of
one base are collected, and roots of numbers are joined. What remains is
put in order with the number in front, and a number in front of a single
sum is distributed over it.
-/
import Fluxion.Algebra.Rules.Basic

namespace Fluxion.Algebra.Product

/-- What has been read of a product. -/
structure State where
  /-- The number so far, unless it is the infinity without direction. -/
  total : Number
  unsigned : Bool
  powers : List (Form × Form)
  /-- Numbers with exponents that are not numbers. -/
  exponentials : List (Form × Form)
  /-- The exponent of minus one, from roots of negative numbers and from
  the imaginary unit. -/
  sign : Rat
  roots : List (Number × Rat)
  /-- Truth values, which stand last. -/
  logical : List Form

def State.empty : State := ⟨.one, false, [], [], Rat.ofInt 0, [], []⟩

/-- Takes a number in; nothing to be had any more is `none`. -/
def State.times (s : State) (a : Number) : Option State :=
  if a == .undefined then none
  else if s.unsigned then if a.isZero then none else some s
  else
    let t := s.total.mul a
    if t == .undefined then none else some { s with total := t }

/-- Takes the power of a number in that is not to be kept as it is. -/
def State.addRoot (s : State) (b : Number) (e : Rat) : State :=
  let s := if b.isNegative then { s with sign := Rat.add s.sign e } else s
  let b := b.abs
  if b == .one then s else { s with roots := s.roots ++ [(b, e)] }

/-- Reads the factors; those of a nested product come after all others.
`fuel` has to reach the number of parts. -/
def read (r : Rules) : (fuel : Nat) → List Form → State → Result (Option State)
  | 0, _, s => .ok (some s)
  | _, [], s => .ok (some s)
  | fuel + 1, u :: rest, s =>
    match u with
    | .product us => read r fuel (rest ++ us) s
    | .number a =>
      match s.times a with
      | none => .ok none
      | some s' => read r fuel rest s'
    | .unsigned =>
      if s.total.isZero then .ok none else read r fuel rest { s with unsigned := true }
    | .imaginary => read r fuel rest { s with sign := Rat.add s.sign (mkRat 1 2) }
    | .truth _ => read r fuel rest { s with logical := s.logical ++ [u] }
    | .power (.number b) e =>
      match e with
      | .number (.exact x) =>
        if x.den == 1 || x.num < 0 then do
          let v ← r.power (.number b) e
          if v == u then read r fuel rest { s with powers := s.powers ++ [(.number b, e)] }
          else read r fuel (rest ++ [v]) s
        else read r fuel rest (s.addRoot b x)
      | e =>
        let p := Form.baseExponent Form.negated u
        if b.isPositive then
          read r fuel rest { s with exponentials := s.exponentials ++ [(p.1, p.2)] }
        else read r fuel rest { s with powers := s.powers ++ [(.number b, e)] }
    | u =>
      let p := Form.baseExponent Form.negated u
      read r fuel rest { s with powers := s.powers ++ [p] }

/-! ## Collecting powers -/

/-- Exponents of one base that differ only in a coefficient are added. -/
def collect (r : Rules) (ps : List (Form × Form)) : Result (List (Form × Form)) := do
  let add (p q : Number) : Number := p.add q
  let byBase := ps.foldl
    (fun acc p =>
      let c := p.2.coefficient
      gather (fun old new => new.foldl (fun l e => gather add e.1 e.2 l) old) p.1 [(c.2, c.1)] acc)
    ([] : List (Form × List (Form × Number)))
  byBase.flatMapM fun b => b.2.mapM fun e => do
    let x ← if e.2 == .one then pure e.1 else r.product [.number e.2, e.1]
    return (b.1, x)

/-- The factors that collected powers make, with the numbers among them
apart. A cancelled infinity is `none`. -/
structure Made where
  total : Number
  factors : List Form
  powers : List (Form × Form)
  changed : Bool

def make (r : Rules) (total : Number) : List (Form × Form) → Result (Option Made)
  | [] => .ok (some ⟨total, [], [], false⟩)
  | (b, e) :: rest =>
    if e.isZero then
      if b.parts.any Form.isInfinite then .ok none else make r total rest
    else if e == Form.one then
      match b with
      | .number a => make r (total.mul a) rest
      | b => do
        match ← make r total rest with
        | none => return none
        | some m => return some { m with factors := b :: m.factors, powers := (b, e) :: m.powers }
    else do
      let p ← r.power b e
      let q := if p.isPower && !b.isPower then Form.baseExponent Form.negated p else (b, e)
      match ← make r total rest with
      | none => return none
      | some m =>
        return some
          { m with
            factors := p :: m.factors
            powers := q :: m.powers
            changed := m.changed || !(q.1 == b) }

def distinctBases : List (Form × Form) → Bool
  | [] => true
  | p :: rest => !(rest.any fun q => q.1 == p.1) && distinctBases rest

/-- Collected powers as factors; a second time when taking powers made
equal bases. -/
def makeFactors (r : Rules) (total : Number) (ps : List (Form × Form)) : Result (Option Made) := do
  match ← make r total ps with
  | none => return none
  | some m =>
    if m.changed && !distinctBases m.powers then
      let again ← collect r m.powers
      make r m.total again
    else return some m

/-! ## Roots of numbers -/

def wholePart (b : Number) (e : Rat) : Number × Rat :=
  let k := e.floor
  (match b with
    | .exact x => .exact (Rat.pow x k.toNat)
    | b => .float (Binary.powInt (b.toBinary b.precision) k),
    Rat.sub e (Rat.ofInt k))

def commonDivisor : Number → Number → Number
  | .exact a, .exact b => .ratio (Nat.gcd a.num.natAbs b.num.natAbs : Nat) (Nat.lcm a.den b.den)
  | _, _ => .one

/-- Numbers whose exponents add up to the same are multiplied; integer
parts of exponents go into the number in front. -/
def joinRoots (roots : List (Number × Rat)) : Number × List (Number × Rat) :=
  let perBase := roots.foldl (fun acc p => gather Rat.add p.1 p.2 acc) []
  let perExponent := perBase.foldl (fun acc p => gather Number.mul p.2 p.1 acc) []
  perExponent.foldl
    (fun acc p =>
      let w := if p.1.den == 1 || p.1.den < p.1.num.natAbs then wholePart p.2 p.1
        else (Number.one, p.1)
      (acc.1.mul w.1, if w.2.num == 0 then acc.2 else acc.2 ++ [(p.2, w.2)]))
    (Number.one, [])

/-- Divides the common part out of one root and all later ones. -/
def shareDivisors (b : Number) (e : Rat) :
    List (Number × Rat) → Number × Number × List (Number × Rat) × List (Number × Rat)
  | [] => (b, .one, [], [])
  | (c, f) :: rest =>
    if b == .one then (b, .one, (c, f) :: rest, [])
    else
      let g := commonDivisor b c
      if g == .one then
        let t := shareDivisors b e rest
        (t.1, t.2.1, (c, f) :: t.2.2.1, t.2.2.2)
      else
        let s := Rat.add e f
        let w := if s.den == 1 || s.den < s.num.natAbs then wholePart g s else (Number.one, s)
        let t := shareDivisors (b.div g) e rest
        (t.1, t.2.1.mul w.1, (c.div g, f) :: t.2.2.1,
          (if w.2.num == 0 then [] else [(g, w.2)]) ++ t.2.2.2)

/-- Takes roots one after the other, numbers with a common divisor being
split; the number that comes out in front, and bases by exponent. -/
def takeRoots (r : Rules) :
    (fuel : Nat) → List (Number × Rat) → Number → List (Form × List Form) →
    Result (Number × List (Form × List Form))
  | 0, _, total, acc => .ok (total, acc)
  | _, [], total, acc => .ok (total, acc)
  | fuel + 1, (b, e) :: rest, total, acc =>
    let s := shareDivisors b e rest
    let total := total.mul s.2.1
    let later := s.2.2.1 ++ s.2.2.2
    if s.1 == .one then takeRoots r fuel later total acc
    else do
      let p ← r.power (.number s.1) (.number (.exact e))
      let step := p.factors.foldl
        (fun (st : Number × List (Form × List Form)) f =>
          match f with
          | .number a => (st.1.mul a, st.2)
          | .power c x => (st.1, gather (fun old new => old ++ new) x [c] st.2)
          | f => (st.1, gather (fun old new => old ++ new) Form.one [f] st.2))
        (total, acc)
      takeRoots r fuel later step.1 step.2

/-- A power of minus one joins a root with the same exponent, or stands by
itself. -/
def placeSign (e : Rat) : List (Form × Form) → Option (List (Form × Form))
  | [] => none
  | (x, b) :: rest =>
    if x == .number (.exact e) && b.isPositive then some ((x, b.negated) :: rest)
    else (placeSign e rest).map ((x, b) :: ·)

/-! ## The result -/

/-- The factors that an infinity does not swallow, and the sign they give
it. -/
def survive (negative : Bool) : List Form → Bool × List Form
  | [] => (negative, [])
  | u :: us =>
    if u.isPositive then survive negative us
    else if u.isNegative then survive (!negative) us
    else
      let s := survive negative us
      (s.1, u :: s.2)

/-- A number in front of ordered factors; in front of a single sum it is
distributed. -/
def place (r : Rules) (total : Number) (ordered : List Form) : Result Form :=
  match ordered with
  | [.sum us] =>
    if total == .one then .ok (.sum us)
    else if total.isFinite then do
      let vs ← us.mapM fun u => r.product [.number total, u]
      r.sum vs
    else .ok (.product [.number total, .sum us])
  | us => .ok (Form.rawProduct (if total == .one then us else .number total :: us))

/-- Numbers among factors are multiplied into the number in front. -/
def stragglers (total : Number) (us : List Form) : Number × List Form :=
  us.foldl
    (fun acc u =>
      match u with
      | .number a => (acc.1.mul a, acc.2)
      | u => (acc.1, acc.2 ++ [u]))
    (total, [])

def finish (r : Rules) (s : State) : Result Form := do
  let ps ← collect r s.powers
  let es ← collect r s.exponentials
  match ← makeFactors r s.total ps with
  | none => return Form.undefined
  | some m =>
    -- numbers with one exponent are multiplied: 2^x 3^x is 6^x
    let byExponent := es.foldl
      (fun acc p => gather (fun old new => old ++ new) p.2 [p.1] acc) ([] : List (Form × List Form))
    let exponentials ← (byExponent.filter fun p => !p.1.isZero).mapM fun p => do
      let b ← r.product p.2
      r.power b p.1
    let joined := joinRoots s.roots
    let taken ← takeRoots r (8 * joined.2.length + 8) joined.2 (m.total.mul joined.1) []
    let rooted ← taken.2.mapM fun p => do
      let b ← r.product p.2
      return (p.1, b)
    -- minus one to a whole power is a sign, to a half the imaginary unit
    let whole := s.sign.floor
    let rest := Rat.sub s.sign (Rat.ofInt whole)
    let total := if whole % 2 == 0 then taken.1 else taken.1.neg
    let signed : List Form × List (Form × Form) :=
      if rest.num == 0 then ([], rooted)
      else if rest.den == 2 then ([.imaginary], rooted)
      else
        match placeSign rest rooted with
        | some rooted' => ([], rooted')
        | none => ([.power Form.minusOne (.number (.exact rest))], rooted)
    let roots ← signed.2.mapM fun p => r.power p.2 p.1
    let factors := m.factors ++ exponentials ++ signed.1 ++ roots
    if s.unsigned then
      let kept := factors.filter fun u => u.real?.isNone
      return Form.rawProduct (.unsigned :: Form.sorted kept)
    else if total.isZero then
      if factors.any Form.isInfinite then return Form.undefined else return .number total
    else
      let t := match total with
        | .infinite negative =>
          let v := survive negative factors
          (Number.infinite v.1, v.2)
        | total => stragglers total factors
      let placed ← place r t.1 (Form.sorted t.2)
      match s.logical with
      | [] => return placed
      | ls => return Form.rawProduct (placed.factors ++ ls)

/-- The first two factors when one is an exact number and the other a sum,
possibly with a coefficient of its own. -/
def pair? (r : Rules) : List Form → Result (Option Form)
  | [a, b] =>
    let p := if b.isExact then (b, a) else (a, b)
    match p.1 with
    | .number x =>
      if x.isExact && !x.isZero then
        if p.2.isLogical then .error .noAlgebra
        else
          let c := p.2.coefficient
          match c.2 with
          | .sum us =>
            if c.1 == .one then do
              let vs ← us.mapM fun u => keep x u
              some <$> r.sum vs
            else
              let y := x.mul c.1
              .ok (some (if y == .one then c.2 else .product [.number y, c.2]))
          | _ => .ok none
      else .ok none
    | _ => .ok none
  | _ => .ok none
where
  keep (x : Number) (u : Form) : Result Form :=
    match u with
    | .number a => .ok (.number (x.mul a))
    | .product (.number a :: rest) =>
      let y := x.mul a
      .ok (Form.rawProduct (if y == .one then rest else .number y :: rest))
    | .product us => .ok (.product (.number x :: us))
    | .sum us => .ok (.product [.number x, .sum us])
    | u => r.product [.number x, u]

/-- The product of forms; a comparison is no factor. -/
def rule (r : Rules) (us : List Form) : Result Form :=
  if us.any fun u => match u with | .relate _ _ _ => true | _ => false then .error .mixedLogic
  else
    match us.filter fun u => !(u == Form.one) with
    | [] => .ok Form.one
    | [u] => .ok u
    | vs => do
      match ← pair? r vs with
      | some v => return v
      | none =>
        match ← read r (4 * Form.totalSize vs + 4) vs .empty with
        | none => return Form.undefined
        | some s => finish r s

end Fluxion.Algebra.Product
