/-
Bindings as a caller writes them: keys that name variables, and values
that are numbers, spellings of numbers, truth values, nothing (which is
not a number) or nested lists of these. Of bindings with the same key only
the last value is read, in the place of the first. Reading them yields an
environment in which the last binding of a name counts. One list among the
values, if only for a name that does not occur, makes the evaluation an
array evaluation.
-/
import Fluxion.Evaluation
import Fluxion.Operand

namespace Fluxion

structure Binding (α : Type) where
  key : Operand α
  value : Nested (Operand α)

namespace Binding

variable {α : Type} [Scalar α] [Numeral α]

/-- Puts a binding among others; one with the same key gets the value. -/
def insert (bs : List (Binding α)) (b : Binding α) : List (Binding α) :=
  if bs.any fun c => c.key.sameKey b.key then
    bs.map fun c => if c.key.sameKey b.key then { c with value := b.value } else c
  else bs ++ [b]

/-- Bindings with one value for each key. -/
def merged (bs : List (Binding α)) : List (Binding α) := bs.foldl insert []

/-- The cells of a value, one cell in one dimension for a bare number. -/
def grid (value : Nested (Operand α)) : Except (Fault α) (Grid α) := do
  let g ← Tree.orShapes value.grid?
  let cells ← g.cells.mapM Operand.cell
  return if value.isRow then ⟨g.shape, cells⟩ else ⟨[1], cells⟩

/-- The environment that bindings make; a value is read before its key. -/
def environment : List (Binding α) → Except (Fault α) (Environment (Grid α))
  | [] => .ok []
  | b :: rest => do
    let g ← grid b.value
    let x ← b.key.variableName
    let env ← environment rest
    return env ++ [(x, g)]

end Binding

/-- The outcome of an evaluation: a number, or an array as soon as one
value was a list. -/
inductive Measure (α : Type) where
  | number (a : α)
  | array (g : Grid α)

namespace Tree

variable {α : Type} [Scalar α] [Numeral α]

def measure (bindings : List (Binding α)) (t : Tree α) : Except (Fault α) (Measure α) := do
  let bs := Binding.merged bindings
  let env ← Binding.environment bs
  if bs.any fun b => b.value.isRow then
    let g ← t.evaluateGrid env
    return .array g
  else
    let scalars : Environment α :=
      env.filterMap fun e => e.2.cells.head?.map fun a => (e.1, a)
    let a ← t.evaluate scalars
    return .number a

/-- The value under bindings and further ones by name, which come last. The
names of the evaluation's own arguments cannot be bound in that way. -/
def measureNamed (bindings named : List (Binding α)) (t : Tree α) :
    Except (Fault α) (Measure α) :=
  let isOwn (b : Binding α) : Bool :=
    b.key.sameKey (.text "self") || b.key.sameKey (.text "bindings")
  if named.any isOwn then .error .argumentCount else t.measure (bindings ++ named)

end Tree

end Fluxion
