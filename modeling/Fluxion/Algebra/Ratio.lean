/-
Forms as quotients of polynomials in whatever they are made of: symbols,
functions, roots and constants count as generators. Reduced quotients give
the cancelled and the factored form. A form with floating point numbers is
no such quotient.
-/
import Fluxion.Algebra.Poly.Factor
import Fluxion.Algebra.Rules

namespace Fluxion.Algebra

/-- A quotient of polynomials in given generators. -/
structure Ratio where
  generators : List Form
  numerator : Poly
  denominator : Poly

namespace Ratio

/-! ## Generators -/

mutual

/-- What the form is made of, repeats kept. -/
def generatorsOf : Form → List Form
  | .number _ => []
  | .sum us | .product us => allGenerators us
  | .power b e =>
    match e.int? with
    | some _ => generatorsOf b
    | none => [(Form.generator (.power b e)).1]
  | u => [(Form.generator u).1]

def allGenerators : List Form → List Form
  | [] => []
  | u :: us => generatorsOf u ++ allGenerators us

end

/-- A generator among others as a polynomial. -/
def unit (gs : List Form) (g : Form) : Poly :=
  [(gs.map fun h => if h == g then 1 else 0, Rat.ofInt 1)]

def powerOf (n : Nat) (p : Poly × Poly) (k : Int) : Poly × Poly :=
  let q := (Poly.pow n p.1 k.natAbs, Poly.pow n p.2 k.natAbs)
  if k < 0 then (q.2, q.1) else q

mutual

/-- Numerator and denominator; nothing where a number is not exact or a
power is too high. -/
def read? (gs : List Form) : Form → Option (Poly × Poly)
  | .number (.exact q) => some (Poly.constant gs.length q, Poly.one gs.length)
  | .number _ | .unsigned | .truth _ | .relate _ _ _ => none
  | .sum us => readSum? gs us
  | .product us => readProduct? gs us
  | .power b e =>
    match e.int? with
    | some k => do
      if 64 < k.natAbs then none
      else
        let p ← read? gs b
        if k < 0 && p.1.isEmpty then none else some (powerOf gs.length p k)
    | none => readGenerator gs (.power b e)
  | u => readGenerator gs u

def readSum? (gs : List Form) : List Form → Option (Poly × Poly)
  | [] => some ([], Poly.one gs.length)
  | u :: us => do
    let p ← read? gs u
    let q ← readSum? gs us
    if p.2 == q.2 then some (Poly.add p.1 q.1, p.2)
    else some (Poly.add (Poly.mul p.1 q.2) (Poly.mul q.1 p.2), Poly.mul p.2 q.2)

def readProduct? (gs : List Form) : List Form → Option (Poly × Poly)
  | [] => some (Poly.one gs.length, Poly.one gs.length)
  | u :: us => do
    let p ← read? gs u
    let q ← readProduct? gs us
    some (Poly.mul p.1 q.1, Poly.mul p.2 q.2)

def readGenerator (gs : List Form) (u : Form) : Option (Poly × Poly) :=
  let g := Form.generator u
  if 64 < g.2.natAbs then none
  else some (powerOf gs.length (unit gs g.1, Poly.one gs.length) g.2)

end

/-- The quotient that a form is, without common factors. -/
def ofForm? (u : Form) : Option Ratio := do
  let gs := Form.distinct (generatorsOf u)
  let p ← read? gs u
  let g := Poly.gcd gs.length p.1 p.2
  if p.2.isEmpty then none
  else some ⟨gs, Poly.divide p.1 g, Poly.divide p.2 g⟩

/-! ## Back to forms -/

def termForm (gs : List Form) (e : List Nat) (c : Rat) : Result Form := do
  let ps ← (gs.zip e).filterMapM fun p => do
    if p.2 == 0 then return none else some <$> rules.power p.1 (Form.int p.2)
  rules.product (Form.rational c :: ps)

def polyForm (gs : List Form) (f : Poly) : Result Form := do
  rules.sum (← f.mapM fun t => termForm gs t.1 t.2)

/-- The number in front, with what remains above and below the line. -/
def parts (q : Ratio) : Rat × Poly × Poly :=
  let n := Poly.numericContent q.numerator
  let d := Poly.numericContent q.denominator
  (Rat.div n d, Poly.primitive q.numerator, Poly.primitive q.denominator)

def cancelled (q : Ratio) : Result Form := do
  let p := q.parts
  let n ← polyForm q.generators p.2.1
  let d ← polyForm q.generators p.2.2
  if d == Form.one then rules.product [Form.rational p.1, n]
  else
    let top ← rules.product [Form.rational (Rat.ofInt p.1.num), n]
    let below ← rules.product [Form.int p.1.den, d]
    rules.div top below

def factorsForm (gs : List Form) (f : Poly) : Result (Rat × List Form) := do
  let p := Poly.factor gs.length f
  let us ← p.2.mapM fun q => do
    let u ← polyForm gs q.1
    rules.power u (Form.int q.2)
  return (p.1, us)

/-- A number in front of factors; it is not distributed over a sum. -/
def inFront (c : Rat) (u : Form) : Result Form :=
  if c == Rat.ofInt 1 then .ok u
  else
    match u with
    | .sum _ => .ok (.product [Form.rational c, u])
    | u => rules.product [Form.rational c, u]

def factored (q : Ratio) : Result Form := do
  let n ← factorsForm q.generators q.numerator
  let d ← factorsForm q.generators q.denominator
  let below ← d.2.mapM fun u => rules.inv u
  let rest ← rules.product (n.2 ++ below)
  inFront (Rat.div n.1 d.1) rest

/-- The power of generators and the number that all terms share, in front
of what remains. -/
def extracted (q : Ratio) : Result Form := do
  let p := q.parts
  let shared := Poly.commonExponents p.2.1
  let rest := Poly.divide p.2.1 [(shared, Rat.ofInt 1)]
  let m ← termForm q.generators shared (Rat.ofInt 1)
  let u ← polyForm q.generators rest
  let d ← polyForm q.generators p.2.2
  let below ← if d == Form.one then pure [] else do pure [← rules.inv d]
  if m == Form.one && below.isEmpty then
    if p.1 == Rat.ofInt 1 then return u else rules.product [Form.rational p.1, u]
  else
    let v ← rules.product ([m, u] ++ below)
    inFront p.1 v

end Ratio

namespace Form

/-- Applies a step to the form as a quotient, if it is one. -/
def asRatio (step : Ratio → Result Form) (u : Form) : Result Form :=
  match Ratio.ofForm? u with
  | some q => step q
  | none => .ok u

def cancel (u : Form) : Result Form := u.asRatio Ratio.cancelled
def factor (u : Form) : Result Form := u.asRatio Ratio.factored
def extract (u : Form) : Result Form := u.asRatio Ratio.extracted

end Form

end Fluxion.Algebra
