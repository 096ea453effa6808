/-
Whether two trees stand for the same function. Their difference is zero by
the rules of algebra, or it vanishes at points of the complex plane that
lie on all sides of the usual branch cuts. A difference that is a number
times powers of names is zero only if that number is; choices that are made
by the same conditions are compared value by value, whatever the conditions
say, and other choices on the real line.
-/
import Fluxion.Algebra.Compiled

namespace Fluxion.Algebra

/-- Points far enough from zero, in all quadrants, with large angles. -/
def samplePoints : List (List Complex) :=
  [[⟨0.7, 0.3⟩, ⟨1.3, -0.4⟩, ⟨2.1, 0.9⟩, ⟨0.4, 1.1⟩],
    [⟨-0.8, 0.6⟩, ⟨-1.7, 0.35⟩, ⟨0.9, -1.3⟩, ⟨-0.55, -0.95⟩],
    [⟨-1.4, -0.2⟩, ⟨0.35, 4.1⟩, ⟨-2.3, 0.15⟩, ⟨1.9, -3.7⟩],
    [⟨0.25, -4.3⟩, ⟨-0.45, 3.9⟩, ⟨-1.1, -2.6⟩, ⟨-3.2, 0.4⟩],
    [⟨-2.6, 1.8⟩, ⟨-0.9, -1.6⟩, ⟨1.2, 5.2⟩, ⟨0.6, 2.4⟩]]

/-- Real points, for forms with comparisons in them. -/
def realPoints : List (List Float) :=
  [[0.7, 1.3, 2.1, 0.4], [-0.8, -1.7, 0.9, -0.55], [2.5, -0.45, -2.3, 1.9], [-3.4, 0.25, 1.1, -2.2],
    [0.15, 3.1, -0.6, 0.85], [5.2, 4.4, -4.8, 3.7]]

namespace Form

def assign {β : Type} (names : List String) (values : List β) (x : String) : Option β :=
  match (names.zip (List.replicate (names.length + 1) values).flatten).find? fun p => p.1 == x with
  | some p => some p.2
  | none => none

/-- The sizes of the terms of a form, against which its value is small. -/
def scaleAt (env : String → Option Complex) (u : Form) : Float :=
  u.terms.foldl
    (fun acc t => match value? env t with | some z => acc + z.norm | none => acc) 1.0

/-- Whether the form vanishes at a point; nothing is said where it has no
value. -/
def vanishesAt (env : String → Option Complex) (u : Form) : Option Bool :=
  match value? env u with
  | none => none
  | some z => if z.isFinite then some (z.norm ≤ 1e-9 * scaleAt env u) else none

def vanishesAtReal (names : List String) (u : Form) (values : List Float) : Option Bool :=
  let env := names.filterMap fun x => (assign names values x).map fun v => (x, Quantity.plain v)
  match Compiled.evaluate env u with
  | .ok q => if q.value.isFinite then some (q.value.abs ≤ 1e-9) else none
  | .error _ => none

/-- Whether a form vanishes at all sample points where it has a value, and
has one at some of them. -/
def vanishesAtSamples (u : Form) : Bool :=
  let names := u.names.eraseDups
  let found := samplePoints.filterMap fun zs => vanishesAt (assign names zs) u
  let answers := if found.isEmpty then realPoints.filterMap (vanishesAtReal names u) else found
  !answers.isEmpty && answers.all id

def isMonomialFactor : Form → Bool
  | .number _ | .symbol _ | .power (.symbol _) (.number _) => true
  | _ => false

mutual

def choices : Form → List (List Form)
  | .cases vs cs => cs :: allChoices vs
  | .sum us | .product us | .foreign _ us => allChoices us
  | .power b e => choices b ++ choices e
  | .call _ u => choices u
  | _ => []

def allChoices : List Form → List (List Form)
  | [] => []
  | u :: us => choices u ++ allChoices us

end

mutual

/-- The form with the value at place `i` for each of its choices. -/
def taking (i : Nat) : Form → Form
  | .cases vs cs => (takingAll i vs)[i]?.getD (.cases vs cs)
  | .sum us => .sum (takingAll i us)
  | .product us => .product (takingAll i us)
  | .foreign f us => .foreign f (takingAll i us)
  | .power b e => .power (taking i b) (taking i e)
  | .call op u => .call op (taking i u)
  | u => u

def takingAll (i : Nat) : List Form → List Form
  | [] => []
  | u :: us => taking i u :: takingAll i us

end

/-- Whether a form is zero wherever it has a value. -/
def vanishes (u : Form) : Bool :=
  match u with
  | .number a => a.isZero
  | u =>
    if u.factors.all isMonomialFactor then false
    else
      match u.choices with
      | [] => vanishesAtSamples u
      | cs :: more =>
        if more.all fun ds => sameAll cs ds then
          (List.range cs.length).all fun i => vanishesAtSamples (taking i u)
        else vanishesAtSamples u

end Form

end Fluxion.Algebra

namespace Fluxion

open Fluxion.Algebra

/-- Whether two trees stand for the same function. Comparisons are not
subtracted from one another. -/
def Tree.isEquivalent (s t : Tree Float) : Algebra.Result Bool := do
  let u ← s.toForm
  let v ← t.toForm
  if u.isLogical || v.isLogical then .error .mixedLogic
  else return (← rules.sub u v).vanishes

end Fluxion
