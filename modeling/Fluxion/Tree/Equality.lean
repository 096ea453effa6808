/-
Equality of trees. `same` compares node by node: kinds, operators and
names alike, literals numerically equal. `equal` is how trees are compared
in practice: it refuses at once when two fingerprints differ and looks at
the fields and children only after that. The fingerprint is a parameter,
since nothing depends on which one is used beyond equal trees having equal
fingerprints.
-/
import Fluxion.Tree

namespace Fluxion

/-- How names, operators, numbers and tuples of fingerprints are
fingerprinted. -/
structure Digest (α : Type) where
  text : String → UInt64
  number : α → UInt64
  tuple : List UInt64 → UInt64
  tag : Tree.Kind → UInt64

namespace Tree

variable {α : Type}

/-- Same kinds, operators and names, and numerically equal literals,
position by position. -/
def same [Scalar α] : Tree α → Tree α → Bool
  | .var x, .var y => x == y
  | .const a, .const b => Scalar.eq a b
  | .binary o l r, .binary p l' r' => o == p && l.same l' && r.same r'
  | .unary o u, .unary p u' => o == p && u.same u'
  | .relate o l r, .relate p l' r' => o == p && l.same l' && r.same r'
  | .branch c t f, .branch c' t' f' => c.same c' && t.same t' && f.same f'
  | _, _ => false

/-- The fingerprint of a tree, from those of its fields and children. -/
def digest (d : Digest α) : Tree α → UInt64
  | .var x => d.tuple [d.tag .variable, d.text x]
  | .const a => d.tuple [d.tag .constant, d.number a]
  | .binary op l r => d.tuple [d.tag .binary, d.text op.symbol, l.digest d, r.digest d]
  | .unary op u => d.tuple [d.tag .unary, d.text op.symbol, u.digest d]
  | .relate rel l r => d.tuple [d.tag .comparison, d.text rel.symbol, l.digest d, r.digest d]
  | .branch c t f => d.tuple [d.tag .conditional, c.digest d, t.digest d, f.digest d]

/-- Equality with the fingerprint looked at first, at every node. -/
def equal [Scalar α] (d : Digest α) : Tree α → Tree α → Bool
  | .var x, .var y => (digest d (.var x) == digest d (.var y)) && x == y
  | .const a, .const b => (digest d (.const a) == digest d (.const b)) && Scalar.eq a b
  | .binary o l r, .binary p l' r' =>
    (digest d (.binary o l r) == digest d (.binary p l' r')) &&
      (o == p && (l.equal d l' && r.equal d r'))
  | .unary o u, .unary p u' =>
    (digest d (.unary o u) == digest d (.unary p u')) && (o == p && u.equal d u')
  | .relate o l r, .relate p l' r' =>
    (digest d (.relate o l r) == digest d (.relate p l' r')) &&
      (o == p && (l.equal d l' && r.equal d r'))
  | .branch c t f, .branch c' t' f' =>
    (digest d (.branch c t f) == digest d (.branch c' t' f')) &&
      (c.equal d c' && (t.equal d t' && f.equal d f'))
  | _, _ => false

end Tree

namespace Digest

def standard (α : Type) [Scalar α] : Digest α where
  text := hash
  number := Scalar.digest
  tuple := List.foldl mixHash 7
  tag := fun k => k.code.toUInt64

end Digest

namespace Tree

def eq {α : Type} [Scalar α] (a b : Tree α) : Bool := a.equal (.standard α) b

end Tree

end Fluxion
