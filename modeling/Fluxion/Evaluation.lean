/-
The value of a tree at given bindings. `value` follows the kernels and
lets undefined results flow on; `evaluate` then refuses a final result
that is not finite. A conditional evaluates its test and the branch the
test selects, and only those; a test that is not a number counts as true.

`gridValue` and `evaluateGrid` do the same on arrays, cell by cell with
broadcasting. There a conditional evaluates both branches when its test
holds in some cells and fails in others.
-/
import Fluxion.Fault
import Fluxion.Grid

namespace Fluxion

/-- Names with the values bound to them; the first entry for a name
counts. -/
abbrev Environment (β : Type) := List (String × β)

namespace Environment

def get? {β : Type} (env : Environment β) (x : String) : Option β :=
  (env.find? fun e => e.1 == x).map Prod.snd

end Environment

namespace Tree

variable {α : Type} [Scalar α]

/-! ## One point -/

/-- The value by the kernels, finite or not. -/
def value (env : Environment α) : Tree α → Except (Fault α) α
  | .var x =>
    match env.get? x with
    | some a => .ok a
    | none => .error (.unbound x)
  | .const a => .ok a
  | .binary op l r => do
    let a ← l.value env
    let b ← r.value env
    return Scalar.binary op a b
  | .unary op u => do
    let a ← u.value env
    return Scalar.unary op a
  | .relate rel l r => do
    let a ← l.value env
    let b ← r.value env
    return Scalar.indicator (Scalar.holds rel a b)
  | .branch c t f => do
    let a ← c.value env
    if Scalar.holds .ne a Scalar.zero then t.value env else f.value env

/-- The value where it is finite. -/
def evaluate (env : Environment α) (t : Tree α) : Except (Fault α) α := do
  let a ← t.value env
  if Scalar.isFinite a then .ok a else .error (.undefined t)

def evaluateAt (x : String) (a : α) (t : Tree α) : Except (Fault α) α :=
  t.evaluate [(x, a)]

/-! ## Arrays -/

def orShapes {β : Type} : Option β → Except (Fault α) β
  | some b => .ok b
  | none => .error .shapes

/-- The cells by the kernels, finite or not. -/
def gridValue (env : Environment (Grid α)) : Tree α → Except (Fault α) (Grid α)
  | .var x =>
    match env.get? x with
    | some g => .ok g
    | none => .error (.unbound x)
  | .const a => .ok (.single a)
  | .binary op l r => do
    let a ← l.gridValue env
    let b ← r.gridValue env
    orShapes (Grid.zipWith? (Scalar.binary op) a b)
  | .unary op u => do
    let a ← u.gridValue env
    return a.map (Scalar.unary op)
  | .relate rel l r => do
    let a ← l.gridValue env
    let b ← r.gridValue env
    orShapes (Grid.zipWith? (fun x y => Scalar.indicator (Scalar.holds rel x y)) a b)
  | .branch c t f => do
    let a ← c.gridValue env
    let mask := a.map fun x => Scalar.holds .ne x (Scalar.zero : α)
    if mask.cells.all id then t.gridValue env
    else if !mask.cells.any id then f.gridValue env
    else
      let x ← t.gridValue env
      let y ← f.gridValue env
      orShapes (Grid.zipWith3? (fun b p q => if b then p else q) mask x y)

/-- The cells where all of them are finite. -/
def evaluateGrid (env : Environment (Grid α)) (t : Tree α) : Except (Fault α) (Grid α) := do
  let g ← t.gridValue env
  if g.cells.all Scalar.isFinite then .ok g else .error (.undefined t)

end Tree

end Fluxion
