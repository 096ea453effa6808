/-
Replacing subtrees. `substitute old new t` puts `new` for every occurrence
of `old`, found from the root down, so an occurrence inside a replaced one
is not looked at again. `occurs` tells whether anything is replaced; where
it does not, the tree is returned as it was.
-/
import Fluxion.Tree.Equality

namespace Fluxion.Tree

variable {α : Type} [Scalar α]

/-- Whether `old` equals some subtree. -/
def occurs (old : Tree α) : Tree α → Bool
  | .var x => eq (.var x) old
  | .const a => eq (.const a) old
  | .binary op l r => eq (.binary op l r) old || (occurs old l || occurs old r)
  | .unary op u => eq (.unary op u) old || occurs old u
  | .relate rel l r => eq (.relate rel l r) old || (occurs old l || occurs old r)
  | .branch c t f =>
    eq (.branch c t f) old || (occurs old c || (occurs old t || occurs old f))

/-- Every occurrence of `old` replaced by `new`. -/
def substitute (old new : Tree α) : Tree α → Tree α
  | .var x => if eq (.var x) old then new else .var x
  | .const a => if eq (.const a) old then new else .const a
  | .binary op l r =>
    if eq (.binary op l r) old then new
    else .binary op (substitute old new l) (substitute old new r)
  | .unary op u => if eq (.unary op u) old then new else .unary op (substitute old new u)
  | .relate rel l r =>
    if eq (.relate rel l r) old then new
    else .relate rel (substitute old new l) (substitute old new r)
  | .branch c t f =>
    if eq (.branch c t f) old then new
    else .branch (substitute old new c) (substitute old new t) (substitute old new f)

end Fluxion.Tree
