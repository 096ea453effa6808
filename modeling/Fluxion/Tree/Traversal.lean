/-
The nodes of a tree in order. `breadthFirst` empties a queue from the
front and adds each node's children at the back; `depthFirst` puts a node
before its subtrees. `levels` lists the nodes level by level, which is
what the queue visits.
-/
import Fluxion.Tree
import Fluxion.Fault

namespace Fluxion.Tree

variable {α : Type}

/-- The number of nodes below a queue of trees. -/
def totalSize : List (Tree α) → Nat
  | [] => 0
  | t :: rest => t.size + totalSize rest

theorem totalSize_append (queue more : List (Tree α)) :
    totalSize (queue ++ more) = totalSize queue + totalSize more := by
  induction queue with
  | nil => simp only [List.nil_append, totalSize, Nat.zero_add]
  | cons t rest ih =>
    simp only [List.cons_append, totalSize, ih]
    omega

theorem totalSize_children (t : Tree α) : totalSize t.children + 1 = t.size := by
  cases t <;> simp only [totalSize, children, size] <;> omega

/-- Visits the front of the queue and adds its children at the back,
until the queue is empty. -/
def visitAll : List (Tree α) → List (Tree α)
  | [] => []
  | t :: rest => t :: visitAll (rest ++ t.children)
termination_by queue => totalSize queue
decreasing_by
  have := totalSize_children t
  simp only [totalSize, totalSize_append]
  omega

def breadthFirst (t : Tree α) : List (Tree α) := visitAll [t]

def depthFirst : Tree α → List (Tree α)
  | .var x => [.var x]
  | .const a => [.const a]
  | .binary op l r => .binary op l r :: (l.depthFirst ++ r.depthFirst)
  | .unary op u => .unary op u :: u.depthFirst
  | .relate rel l r => .relate rel l r :: (l.depthFirst ++ r.depthFirst)
  | .branch c t f => .branch c t f :: (c.depthFirst ++ t.depthFirst ++ f.depthFirst)

/-- The levels of one tree beside those of another, joined row by row. -/
def beside : List (List (Tree α)) → List (List (Tree α)) → List (List (Tree α))
  | [], bs => bs
  | as, [] => as
  | a :: as, b :: bs => (a ++ b) :: beside as bs

/-- The nodes level by level from the root, each level left to right. -/
def levels : Tree α → List (List (Tree α))
  | .var x => [[.var x]]
  | .const a => [[.const a]]
  | .binary op l r => [.binary op l r] :: beside l.levels r.levels
  | .unary op u => [.unary op u] :: u.levels
  | .relate rel l r => [.relate rel l r] :: beside l.levels r.levels
  | .branch c t f => [.branch c t f] :: beside (beside c.levels t.levels) f.levels

/-- The nodes in the order a caller asks for by name. -/
def nodes (order : String) (t : Tree α) : Except (Fault α) (List (Tree α)) :=
  if order == "breadth_first" then .ok t.breadthFirst
  else if order == "depth_first" then .ok t.depthFirst
  else .error (.unknownTraversal order)

/-! ## Searches, breadth first -/

def nodesOfKind (k : Kind) (t : Tree α) : List (Tree α) :=
  t.breadthFirst.filter fun n => n.kind == k

/-- The nodes that carry the operator `s`, of whatever arity. -/
def nodesWithOperator (s : String) (t : Tree α) : List (Tree α) :=
  t.breadthFirst.filter fun n => n.operatorSymbol? == some s

def literals (t : Tree α) : List (Tree α) := t.nodesOfKind .constant

def variableNodes (t : Tree α) : List (Tree α) := t.nodesOfKind .variable

/-- The number of levels, counted over the kinds of node apart. -/
def levelCount : Tree α → Nat
  | .var _ => 1
  | .const _ => 1
  | .unary _ u => 1 + u.levelCount
  | .binary _ l r => 1 + Nat.max l.levelCount r.levelCount
  | .relate _ l r => 1 + Nat.max l.levelCount r.levelCount
  | .branch c t f => 1 + Nat.max (Nat.max c.levelCount t.levelCount) f.levelCount

end Fluxion.Tree
