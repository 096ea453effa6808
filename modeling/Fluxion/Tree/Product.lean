/-
Products as lists of factors. `factors` opens a nested product from left
to right; `regroup` multiplies factors back together with every literal
and every sign collected in one leading coefficient:

  x, 2, -exp(x), 3   becomes   (-6) * (x * exp(x))

The coefficient has to be finite to stand as a literal, so regrouping can
be refused.
-/
import Fluxion.Fault

namespace Fluxion.Tree

variable {α : Type}

/-- The factors of a nested product, left to right. -/
def factors : Tree α → List (Tree α)
  | .binary .mul l r => l.factors ++ r.factors
  | t => [t]

/-- The left-nested product of factors. -/
def chain : Tree α → List (Tree α) → Tree α
  | t, [] => t
  | t, u :: us => chain (.binary .mul t u) us

variable [Scalar α]

/-- Strips the signs in front of a factor, turning the coefficient for
each. -/
def stripSigns (c : α) : Tree α → α × Tree α
  | .unary .neg u => stripSigns (Scalar.neg c) u
  | t => (c, t)

/-- Takes one factor into the coefficient `c` or the list of remaining
factors. -/
def absorb (acc : α × List (Tree α)) (part : Tree α) : α × List (Tree α) :=
  match stripSigns acc.1 part with
  | (c, .const a) => (Scalar.mul c a, acc.2)
  | (c, t) => (c, acc.2 ++ [t])

def collect (fs : List (Tree α)) : α × List (Tree α) :=
  (fs.flatMap factors).foldl absorb (Scalar.one, [])

/-- A coefficient in front of a product of factors. -/
def lead (c : α) : List (Tree α) → Except (Fault α) (Tree α)
  | [] => literal c
  | t :: ts =>
    if Scalar.eq c Scalar.zero then literal c
    else if Scalar.eq c Scalar.one then .ok (chain t ts)
    else if Scalar.eq c (Scalar.neg Scalar.one) then .ok (.unary .neg (chain t ts))
    else (literal c).map fun k => .binary .mul k (chain t ts)

/-- The product of the factors with one leading coefficient. -/
def regroup (fs : List (Tree α)) : Except (Fault α) (Tree α) :=
  let parts := collect fs
  lead parts.1 parts.2

end Fluxion.Tree
