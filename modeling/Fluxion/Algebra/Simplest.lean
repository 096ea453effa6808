/-
The simplest tree for a function. Several transforms are tried on the
algebraic form, in the order in which they are named, and the least complex
result is kept; of results that are as complex the first is, and the tree
itself is the first of all. A transform whose result has no tree is passed
over.
-/
import Fluxion.Algebra.Identity
import Fluxion.Simplification

namespace Fluxion.Algebra

/-! ## Transforms -/

namespace Form

/-- A number in front of a single sum is distributed. -/
def spread (u : Form) : Result Form :=
  match u with
  | .product [.number a, .sum us] => rules.product [.number a, .sum us]
  | u => .ok u

/-- Rational steps: a reduced quotient, multiplied out or not, with common
factors taken out. -/
def rationalized (u : Form) : Result Form := do
  let a ← u.cancel
  let b ← (← a.expand).cancel
  let short ← a.shortest [b]
  let best ← short.shortest [u]
  best.extract

/-- Joined powers and logarithms, where that is shorter. -/
def joined (u : Form) : Result Form := do
  let logs ← (← u.expand).shortest [u, ← Identity.logarithmic u]
  let u ← if u.applications.any (fun v => match v with | .call .ln _ => true | _ => false) then
      u.shortest [logs]
    else pure u
  u.shortest [← rebuild Identity.joinPowers u]

def isArithmetic : Form → Bool
  | .sum _ | .product _ | .power _ _ | .call .exp _ => true
  | _ => false

/-- All transforms together; `fuel` has to reach the depth of functions inside
functions. -/
def simplifyWith : (fuel : Nat) → Form → Result Form
  | 0, u => .ok u
  | fuel + 1, u => do
    let inner ← rebuild
      (fun v => match v with
        | .call op w => if op == .exp then .ok v else do rules.call op (← simplifyWith fuel w)
        | v => .ok v)
      u
    if !inner.isArithmetic then return inner
    else
      let a ← rationalized inner
      let b ← Identity.trigonometric a
      let c ← joined b
      let d ← c.shortest [← c.cancel]
      let e ← d.shortest [← d.extract, ← d.expand]
      let result ← spread e
      let before ← u.operations
      let after ← result.operations
      return if 17 * before < 10 * after then u else result

/-- The form after all transforms. A comparison is left as it is; a choice is
transformed value by value. -/
def simplified (u : Form) : Result Form :=
  match u with
  | .relate _ _ _ | .truth _ => .ok u
  | .cases vs cs => do return .cases (← vs.mapM fun v => simplifyWith 12 v) cs
  | u => simplifyWith 12 u

end Form

def transformNamed? (name : String) : Option (Form → Result Form) :=
  match name with
  | "simplify" => some Form.simplified
  | "expand" => some Form.expand
  | "factor" => some Form.factor
  | "trigsimp" => some Identity.trigonometric
  | "logcombine" => some Identity.logarithmic
  | "cancel" | "ratsimp" => some Form.cancel
  | "together" => some Form.cancel
  | "powsimp" => some (Form.rebuild Identity.joinPowers)
  | "factor_terms" => some Form.extract
  | _ => none

/-- The transforms that are tried where none are named. -/
def standardTransforms : List String := ["simplify", "expand", "factor", "trigsimp", "logcombine"]

/-! ## The simplest tree -/

/-- A tree with what became of it. -/
structure Simplest where
  tree : Tree Float
  /-- The transform that made it; none if it is the tree itself. -/
  transform : Option String
  before : Nat
  after : Nat

namespace Simplest

/-- Whether a cause passes over a transform, rather than ending the search. -/
def isPassedOver : Fault Float → Bool
  | .noAlgebra => false
  | _ => true

def candidate (transform : Form → Result Form) (u : Form) : Result (Option (Tree Float × Nat)) :=
  let attempt : Result (Tree Float × Nat) := do
    let v ← transform u
    let t ← v.toTree
    return (t, ← v.complexity)
  match attempt with
  | .ok p => .ok (some p)
  | .error e => if isPassedOver e then .ok none else .error e

def improve (u : Form) (best : Simplest) (name : String) : Result Simplest :=
  match transformNamed? name with
  | none => .error (.unknownTransform name)
  | some transform => do
    match ← candidate transform u with
    | none => return best
    | some p =>
      if p.2 < best.after then
        return { best with tree := p.1, transform := some name, after := p.2 }
      else return best

end Simplest

end Fluxion.Algebra

namespace Fluxion

open Fluxion.Algebra

/-- The transforms that are tried for a list of names: the standard ones for
an empty list. -/
def Tree.transformsFor (names : List String) : List String :=
  if names.isEmpty then standardTransforms else names

def Tree.simplest (t : Tree Float) (names : List String) : Algebra.Result Simplest := do
  let u ← t.toForm
  let n ← u.complexity
  (transformsFor names).foldlM (Simplest.improve u) ⟨t, none, n, n⟩

/-- Structural simplification first, then the standard transforms. -/
def Tree.advanced (t : Tree Float) : Algebra.Result (Tree Float) := do
  return (← t.simplify.simplest []).tree

end Fluxion
