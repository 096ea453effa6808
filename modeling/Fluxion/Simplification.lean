/-
Structural simplification: constants are folded, neutral elements dropped,
literal factors gathered in front and double negations removed, from the
leaves up. A fold is kept only if its value is finite, and a function of a
literal only if its value is integral, so the literals of a simplified
tree are finite whenever those of the tree were.
-/
import Fluxion.Tree.Equality

namespace Fluxion.Tree

variable {α : Type} [Scalar α]

/-- The value of an operation on two literals, if it is finite. -/
def foldBinary (op : BinaryOp) (a b : α) : Option α :=
  Scalar.finite? (Scalar.binary op a b)

/-- A negation, folded into a literal or cancelled with another. -/
def negate : Tree α → Tree α
  | .unary .neg u => u
  | .const a => .const (Scalar.neg a)
  | t => .unary .neg t

/-- A function, folded when its argument is a literal and its value an
integer. -/
def apply (op : UnaryOp) : Tree α → Tree α
  | .const a =>
    let r := Scalar.unary op a
    if Scalar.isFinite r && Scalar.isInteger r then .const r else .unary op (.const a)
  | t => .unary op t

def simplifyUnary (op : UnaryOp) (u : Tree α) : Tree α :=
  match op with
  | .neg => negate u
  | op => apply op u

/-- The product of two literals whose fold is not finite: the second goes
in front unless one of them is neutral. -/
def unfoldedProduct (a b : α) : Tree α :=
  if Scalar.eq a Scalar.zero || Scalar.eq b Scalar.zero then zero
  else if Scalar.eq b Scalar.one then .const a
  else if Scalar.eq a Scalar.one then .const b
  else if Scalar.eq b (Scalar.neg Scalar.one) then negate (.const a)
  else .binary .mul (.const b) (.const a)

/-- A literal times a simplified tree; the literal merges with one that
already stands in front. -/
def scale (c : α) : Tree α → Tree α
  | .const a =>
    match foldBinary .mul c a with
    | some r => .const r
    | none => unfoldedProduct c a
  | .binary .mul (.const a) f =>
    if Scalar.eq c Scalar.zero then zero
    else if Scalar.eq c Scalar.one then .binary .mul (.const a) f
    else if Scalar.eq c (Scalar.neg Scalar.one) then negate (.binary .mul (.const a) f)
    else
      match foldBinary .mul c a with
      | some r => scale r f
      | none => .binary .mul (.const c) (.binary .mul (.const a) f)
  | t =>
    if Scalar.eq c Scalar.zero then zero
    else if Scalar.eq c Scalar.one then t
    else if Scalar.eq c (Scalar.neg Scalar.one) then negate t
    else .binary .mul (.const c) t

/-- The product of simplified operands, a literal in front. -/
def product : Tree α → Tree α → Tree α
  | .const a, r => scale a r
  | l, .const b => scale b l
  | l, r => .binary .mul l r

/-- The rules of a sum. Here and below the operands are simplified, and not
both literals. -/
def sum (l r : Tree α) : Tree α :=
  if r.isLiteral 0 then l
  else if l.isLiteral 0 then r
  else .binary .add l r

def difference (l r : Tree α) : Tree α :=
  if r.isLiteral 0 then l
  else if l.isLiteral 0 then negate r
  else if l.eq r then zero
  else .binary .sub l r

def quotient (l r : Tree α) : Tree α :=
  if r.isLiteral 1 then l
  else if l.isLiteral 0 && !r.isLiteral 0 then zero
  else if l.eq r && !r.isLiteral 0 then one
  else .binary .div l r

def power (l r : Tree α) : Tree α :=
  if r.isLiteral 0 then one
  else if r.isLiteral 1 then l
  else if l.isLiteral 1 then one
  else .binary .pow l r

def combine (op : BinaryOp) (l r : Tree α) : Tree α :=
  match op with
  | .add => sum l r
  | .sub => difference l r
  | .mul => product l r
  | .div => quotient l r
  | .pow => power l r

/-- Two literals are folded if the value is finite; otherwise the rules of
the operation apply. -/
def simplifyBinary (op : BinaryOp) (l r : Tree α) : Tree α :=
  match l, r with
  | .const a, .const b =>
    match foldBinary op a b with
    | some c => .const c
    | none => combine op l r
  | _, _ => combine op l r

/-- A comparison, decided between two literals. -/
def simplifyRelation (rel : Relation) (l r : Tree α) : Tree α :=
  match l, r with
  | .const a, .const b => if Scalar.holds rel a b then one else zero
  | _, _ => .relate rel l r

/-- A conditional, decided when its test is a literal. -/
def simplifyBranch (c t f : Tree α) : Tree α :=
  match c with
  | .const a => if Scalar.holds .ne a Scalar.zero then t else f
  | _ => .branch c t f

/-- Simplification from the leaves up. -/
def simplify : Tree α → Tree α
  | .var x => .var x
  | .const a => .const a
  | .binary op l r => simplifyBinary op l.simplify r.simplify
  | .unary op u => simplifyUnary op u.simplify
  | .relate rel l r => simplifyRelation rel l.simplify r.simplify
  | .branch c t f => simplifyBranch c.simplify t.simplify f.simplify

end Fluxion.Tree
