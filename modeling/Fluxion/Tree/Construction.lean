/-
Checked construction of nodes. The strict constructors take operands as
they come and refuse what is not a tree, after looking at the operator;
the builders promote their operands from left to right. The test of a
conditional is never promoted: a number or a name is no condition.
-/
import Fluxion.Operand

namespace Fluxion.Tree

variable {α : Type}

/-! ## Strict constructors -/

def strictBinary (symbol : String) (l r : Operand α) : Except (Fault α) (Tree α) :=
  match BinaryOp.ofSymbol? symbol with
  | none => .error (.unknownOperator .binary symbol)
  | some op => do
    let a ← l.expect .binary
    let b ← r.expect .binary
    return .binary op a b

def strictUnary (symbol : String) (u : Operand α) : Except (Fault α) (Tree α) :=
  match UnaryOp.ofSymbol? symbol with
  | none => .error (.unknownOperator .unary symbol)
  | some op => do
    let a ← u.expect .unary
    return .unary op a

def strictRelation (symbol : String) (l r : Operand α) : Except (Fault α) (Tree α) :=
  match Relation.ofSymbol? symbol with
  | none => .error (.unknownOperator .comparison symbol)
  | some rel => do
    let a ← l.expect .comparison
    let b ← r.expect .comparison
    return .relate rel a b

def strictBranch (c t f : Operand α) : Except (Fault α) (Tree α) := do
  let test ← c.expect .conditional
  let yes ← t.expect .conditional
  let no ← f.expect .conditional
  return .branch test yes no

/-- The node over other children, which are counted before they are looked
at. -/
def rebuild (t : Tree α) (children : List (Operand α)) : Except (Fault α) (Tree α) :=
  match t, children with
  | .binary op _ _, l :: r :: _ => strictBinary op.symbol l r
  | .unary op _, u :: _ => strictUnary op.symbol u
  | .relate rel _ _, l :: r :: _ => strictRelation rel.symbol l r
  | .branch _ _ _, c :: y :: n :: _ => strictBranch c y n
  | .var x, _ => .ok (.var x)
  | .const a, _ => .ok (.const a)
  | _, _ => .error .missingChild

/-! ## Builders -/

variable [Scalar α]

def buildBinary (op : BinaryOp) (l r : Operand α) : Except (Fault α) (Tree α) := do
  let a ← l.promote
  let b ← r.promote
  return .binary op a b

def buildUnary (op : UnaryOp) (u : Operand α) : Except (Fault α) (Tree α) := do
  let a ← u.promote
  return .unary op a

def buildRelation (rel : Relation) (l r : Operand α) : Except (Fault α) (Tree α) := do
  let a ← l.promote
  let b ← r.promote
  return .relate rel a b

def buildBranch (c t f : Operand α) : Except (Fault α) (Tree α) := do
  let yes ← t.promote
  let no ← f.promote
  let test ← c.expect .conditional
  return .branch test yes no

end Fluxion.Tree
