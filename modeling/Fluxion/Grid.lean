/-
Arrays of any rank and how they broadcast. A grid is a shape and its cells
in row-major order. Two shapes are aligned at their last dimension; along
each dimension the lengths must agree or one of them must be one, and that
one is repeated.
-/

namespace Fluxion

structure Grid (α : Type) where
  shape : List Nat
  cells : List α

namespace Grid

variable {α β γ δ : Type}

def single (a : α) : Grid α := ⟨[1], [a]⟩

/-- The shape with leading ones up to rank `n`. -/
def padded (n : Nat) (shape : List Nat) : List Nat :=
  List.replicate (n - shape.length) 1 ++ shape

/-- The common shape of two shapes of one rank. -/
def joinAligned? : List Nat → List Nat → Option (List Nat)
  | [], [] => some []
  | a :: as, b :: bs =>
    if a == b then (joinAligned? as bs).map (a :: ·)
    else if a == 1 then (joinAligned? as bs).map (b :: ·)
    else if b == 1 then (joinAligned? as bs).map (a :: ·)
    else none
  | _, _ => none

/-- The shape two arrays broadcast to. -/
def join? (a b : List Nat) : Option (List Nat) :=
  let n := Nat.max a.length b.length
  joinAligned? (padded n a) (padded n b)

/-- The first `count` runs of `width` cells. -/
def rows (width : Nat) : Nat → List α → List (List α)
  | 0, _ => []
  | count + 1, xs => xs.take width :: rows width count (xs.drop width)

def volume (shape : List Nat) : Nat := shape.foldr (· * ·) 1

/-- Cells of the first shape repeated to fill the second, both of one
rank. -/
def stretch : List Nat → List Nat → List α → List α
  | d :: ds, e :: es, xs =>
    if d == e then (rows (volume ds) d xs).flatMap (stretch ds es)
    else (List.replicate e (stretch ds es xs)).flatten
  | _, _, xs => xs

/-- The grid repeated to fill `shape`, to which it broadcasts. -/
def broadcastTo (shape : List Nat) (g : Grid α) : Grid α :=
  if g.shape == shape then g
  else ⟨shape, stretch (padded shape.length g.shape) shape g.cells⟩

def map (f : α → β) (g : Grid α) : Grid β := ⟨g.shape, g.cells.map f⟩

/-- A function applied cell by cell to two arrays. -/
def zipWith? (f : α → β → γ) (a : Grid α) (b : Grid β) : Option (Grid γ) :=
  (join? a.shape b.shape).map fun shape =>
    ⟨shape, List.zipWith f (a.broadcastTo shape).cells (b.broadcastTo shape).cells⟩

def zipWith3? (f : α → β → γ → δ) (a : Grid α) (b : Grid β) (c : Grid γ) : Option (Grid δ) := do
  let ab ← zipWith? Prod.mk a b
  zipWith? (fun p z => f p.1 p.2 z) ab c

end Grid

/-- A number or a list of such, as an array is written. -/
inductive Nested (α : Type) where
  | cell (a : α)
  | row (entries : List (Nested α))

namespace Nested

variable {α β : Type}

def isRow : Nested α → Bool
  | .cell _ => false
  | .row _ => true

mutual

/-- The grid that nested lists spell; lists of unequal shape spell none. -/
def grid? : Nested α → Option (Grid α)
  | .cell a => some ⟨[], [a]⟩
  | .row entries => do
    let gs ← grids? entries
    match gs with
    | [] => some ⟨[0], []⟩
    | g :: rest =>
      if rest.all fun h => h.shape == g.shape then
        some ⟨gs.length :: g.shape, gs.flatMap Grid.cells⟩
      else none

def grids? : List (Nested α) → Option (List (Grid α))
  | [] => some []
  | e :: es => do
    let g ← grid? e
    let gs ← grids? es
    return g :: gs

end

end Nested

end Fluxion
