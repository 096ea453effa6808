/-
Both traversals visit the whole tree. The queue of the breadth-first
traversal is looked at by rows: in front stands what is left of one level,
behind it are the children of what has been taken from it, and when the
level is used up the queue is the next one (`visitAll_append`). So the
levels come one after the other, each as a whole, until one is empty
(`breadthFirst_eq_flatten_levels`).

A turn of the loop takes one node from the queue and adds what is below it,
so there is one node fewer to visit after it, and as many turns are made as
the tree has nodes (`step_iterate_size`).
-/
import Mathlib.Data.List.Perm.Basic
import Mathlib.Logic.Function.Iterate
import Fluxion.Tree.Traversal

namespace Fluxion.Tree

variable {α : Type}

/-! ## Levels -/

/-- The nodes `n` levels below the root, left to right. -/
def row : Tree α → Nat → List (Tree α)
  | t, 0 => [t]
  | t, n + 1 => t.children.flatMap fun c => c.row n

/-- A level consists of the children of the one above. -/
theorem row_succ (n : Nat) (t : Tree α) : t.row (n + 1) = (t.row n).flatMap children := by
  induction n generalizing t with
  | zero => simp [row]
  | succ n ih =>
    calc t.row (n + 2) = t.children.flatMap fun c => (c.row n).flatMap children := by
          simp only [row, ← ih]
      _ = (t.row (n + 1)).flatMap children := List.flatMap_assoc.symm

/-- The levels of a tree are as many as its depth says. -/
theorem row_eq_nil_iff {n : Nat} (t : Tree α) : t.row n = [] ↔ t.depth ≤ n := by
  induction n generalizing t with
  | zero => simpa [row] using Nat.pos_iff_ne_zero.mp t.depth_pos
  | succ n ih => simp only [row, List.flatMap_eq_nil_iff, ih, depth_le_succ_iff]

theorem length_beside (as bs : List (List (Tree α))) :
    (beside as bs).length = Nat.max as.length bs.length := by
  fun_induction beside as bs with
  | case1 bs => simp
  | case2 as h => simp
  | case3 a as b bs ih => simp [ih]

theorem getD_beside (as bs : List (List (Tree α))) (n : Nat) :
    (beside as bs).getD n [] = as.getD n [] ++ bs.getD n [] := by
  fun_induction beside as bs generalizing n with
  | case1 bs => simp
  | case2 as h => simp
  | case3 a as b bs ih =>
    cases n with
    | zero => rfl
    | succ n => exact ih n

theorem length_levels (t : Tree α) : t.levels.length = t.depth := by
  induction t with
  | var x => rfl
  | const a => rfl
  | binary op l r hl hr =>
    simp only [levels, depth, List.length_cons, length_beside, hl, hr]
    omega
  | unary op u hu =>
    simp only [levels, depth, List.length_cons, hu]
    omega
  | relate rel l r hl hr =>
    simp only [levels, depth, List.length_cons, length_beside, hl, hr]
    omega
  | branch c t f hc ht hf =>
    simp only [levels, depth, List.length_cons, length_beside, hc, ht, hf]
    omega

/-! ### One level lower -/

theorem row_binary (op : BinaryOp) (l r : Tree α) (n : Nat) :
    (Tree.binary op l r).row (n + 1) = l.row n ++ r.row n := by
  simp [row, children]

theorem row_unary (op : UnaryOp) (u : Tree α) (n : Nat) :
    (Tree.unary op u).row (n + 1) = u.row n := by
  simp [row, children]

theorem row_relate (rel : Relation) (l r : Tree α) (n : Nat) :
    (Tree.relate rel l r).row (n + 1) = l.row n ++ r.row n := by
  simp [row, children]

theorem row_branch (c t f : Tree α) (n : Nat) :
    (Tree.branch c t f).row (n + 1) = c.row n ++ t.row n ++ f.row n := by
  simp [row, children]

/-- The levels put side by side are the levels by number. -/
theorem getD_levels (t : Tree α) (n : Nat) : t.levels.getD n [] = t.row n := by
  induction t generalizing n with
  | var x => cases n <;> rfl
  | const a => cases n <;> rfl
  | binary op l r hl hr =>
    cases n with
    | zero => rfl
    | succ n =>
      rw [row_binary, ← hl, ← hr, ← getD_beside]
      rfl
  | unary op u hu =>
    cases n with
    | zero => rfl
    | succ n =>
      rw [row_unary, ← hu]
      rfl
  | relate rel l r hl hr =>
    cases n with
    | zero => rfl
    | succ n =>
      rw [row_relate, ← hl, ← hr, ← getD_beside]
      rfl
  | branch c t f hc ht hf =>
    cases n with
    | zero => rfl
    | succ n =>
      rw [row_branch, ← hc, ← ht, ← hf, ← getD_beside, ← getD_beside]
      rfl

theorem levels_eq (t : Tree α) : t.levels = (List.range t.depth).map t.row := by
  refine List.ext_getElem (by simp [length_levels]) fun n hn _ => ?_
  rw [List.getElem_map, List.getElem_range, ← getD_levels, List.getD_eq_getElem?_getD,
    List.getElem?_eq_getElem hn, Option.getD_some]

/-! ## The queue, level by level -/

/-- While the nodes in front are visited, their children gather behind what
else is in the queue. -/
theorem visitAll_append (front back : List (Tree α)) :
    visitAll (front ++ back) = front ++ visitAll (back ++ front.flatMap children) := by
  induction front generalizing back with
  | nil => simp
  | cons t front ih =>
    rw [List.cons_append, visitAll, List.append_assoc, ih, List.append_assoc, List.flatMap_cons,
      List.cons_append]

theorem visitAll_row (n : Nat) (t : Tree α) :
    visitAll (t.row n) = t.row n ++ visitAll (t.row (n + 1)) := by
  have h := visitAll_append (t.row n) []
  rwa [List.append_nil, List.nil_append, ← row_succ] at h

/-- When `n` levels are visited, level `n` is what the queue holds. -/
theorem breadthFirst_eq_append (n : Nat) (t : Tree α) :
    t.breadthFirst = (List.range n).flatMap t.row ++ visitAll (t.row n) := by
  induction n with
  | zero => rfl
  | succ n ih =>
    rw [ih, visitAll_row, List.range_succ, List.flatMap_append, List.flatMap_singleton,
      List.append_assoc]

theorem breadthFirst_eq_flatten_levels (t : Tree α) : t.breadthFirst = t.levels.flatten := by
  have hlast : t.row t.depth = [] := (row_eq_nil_iff t).mpr (Nat.le_refl _)
  rw [breadthFirst_eq_append t.depth, hlast, visitAll, List.append_nil, levels_eq,
    List.flatMap_def]

/-! ## The loop, turn by turn -/

/-- A breadth-first traversal under way. -/
structure Walk (α : Type) where
  queue : List (Tree α)
  visited : List (Tree α)

namespace Walk

/-- One turn: the front of the queue is visited and its children are added
at the back. -/
def step : Walk α → Walk α
  | ⟨[], visited⟩ => ⟨[], visited⟩
  | ⟨t :: rest, visited⟩ => ⟨rest ++ t.children, visited ++ [t]⟩

/-- What is visited and what will be. -/
def total (w : Walk α) : List (Tree α) := w.visited ++ visitAll w.queue

theorem total_step (w : Walk α) : w.step.total = w.total := by
  rcases w with ⟨_ | ⟨t, rest⟩, visited⟩
  · rfl
  · simp only [step, total]
    rw [visitAll, List.append_assoc, List.singleton_append]

theorem totalSize_step (w : Walk α) : totalSize w.step.queue = totalSize w.queue - 1 := by
  rcases w with ⟨_ | ⟨t, rest⟩, visited⟩
  · rfl
  · have := totalSize_children t
    simp only [step, totalSize, totalSize_append]
    omega

theorem total_iterate (n : Nat) (w : Walk α) : (step^[n] w).total = w.total := by
  induction n with
  | zero => rfl
  | succ n ih => rw [Function.iterate_succ_apply', total_step, ih]

theorem totalSize_iterate (n : Nat) (w : Walk α) :
    totalSize (step^[n] w).queue = totalSize w.queue - n := by
  induction n with
  | zero => rfl
  | succ n ih =>
    rw [Function.iterate_succ_apply', totalSize_step, ih]
    omega

end Walk

theorem totalSize_eq_zero_iff {queue : List (Tree α)} : totalSize queue = 0 ↔ queue = [] := by
  cases queue with
  | nil => simp [totalSize]
  | cons t rest =>
    have := t.size_pos
    simp [totalSize]
    omega

/-- The queue is empty after as many turns as there are nodes, and not
before. -/
theorem queue_iterate_eq_nil_iff (t : Tree α) (n : Nat) :
    (Walk.step^[n] ⟨[t], []⟩).queue = [] ↔ t.size ≤ n := by
  rw [← totalSize_eq_zero_iff, Walk.totalSize_iterate]
  simp only [totalSize]
  omega

theorem step_iterate_size (t : Tree α) :
    Walk.step^[t.size] ⟨[t], []⟩ = ⟨[], t.breadthFirst⟩ := by
  have hqueue := (queue_iterate_eq_nil_iff t t.size).mpr (Nat.le_refl _)
  have htotal := Walk.total_iterate t.size ⟨[t], []⟩
  generalize Walk.step^[t.size] ⟨[t], []⟩ = w at hqueue htotal
  obtain ⟨queue, visited⟩ := w
  obtain rfl : queue = [] := hqueue
  rw [Walk.total, visitAll, List.append_nil] at htotal
  exact congrArg (Walk.mk []) htotal

/-! ## The same nodes, depth first -/

theorem depthFirst_eq (t : Tree α) : t.depthFirst = t :: t.children.flatMap depthFirst := by
  cases t <;> simp [depthFirst, children]

theorem visitAll_perm (queue : List (Tree α)) :
    (visitAll queue).Perm (queue.flatMap depthFirst) := by
  fun_induction visitAll queue with
  | case1 => exact .nil
  | case2 t rest ih =>
    rw [List.flatMap_append] at ih
    rw [List.flatMap_cons, depthFirst_eq, List.cons_append]
    exact (ih.trans List.perm_append_comm).cons t

theorem breadthFirst_perm (t : Tree α) : t.breadthFirst.Perm t.depthFirst := by
  simpa [breadthFirst] using visitAll_perm [t]

theorem length_depthFirst (t : Tree α) : t.depthFirst.length = t.size := by
  induction t with
  | var x => rfl
  | const a => rfl
  | binary op l r hl hr =>
    simp only [depthFirst, size, List.length_cons, List.length_append, hl, hr]
    omega
  | unary op u hu =>
    simp only [depthFirst, size, List.length_cons, hu]
    omega
  | relate rel l r hl hr =>
    simp only [depthFirst, size, List.length_cons, List.length_append, hl, hr]
    omega
  | branch c t f hc ht hf =>
    simp only [depthFirst, size, List.length_cons, List.length_append, hc, ht, hf]
    omega

theorem levelCount_eq_depth (t : Tree α) : t.levelCount = t.depth := by
  induction t with
  | var x => rfl
  | const a => rfl
  | binary op l r hl hr => rw [levelCount, depth, hl, hr]
  | unary op u hu => rw [levelCount, depth, hu]
  | relate rel l r hl hr => rw [levelCount, depth, hl, hr]
  | branch c t f hc ht hf => rw [levelCount, depth, hc, ht, hf]

/-- Depth first the variable nodes come in the order of the text. -/
theorem filter_depthFirst (t : Tree α) :
    (t.depthFirst.filter fun s => s.kind == .variable) = t.names.map .var := by
  induction t with
  | var x => rfl
  | const a => rfl
  | binary op l r hl hr =>
    rw [depthFirst, List.filter_cons_of_neg (by simp [kind]), List.filter_append, hl, hr, names,
      List.map_append]
  | unary op u hu => rw [depthFirst, List.filter_cons_of_neg (by simp [kind]), hu, names]
  | relate rel l r hl hr =>
    rw [depthFirst, List.filter_cons_of_neg (by simp [kind]), List.filter_append, hl, hr, names,
      List.map_append]
  | branch c t f hc ht hf =>
    rw [depthFirst, List.filter_cons_of_neg (by simp [kind]), List.filter_append,
      List.filter_append, hc, ht, hf, names, List.map_append, List.map_append]

theorem variableNodes_perm (t : Tree α) : t.variableNodes.Perm (t.names.map .var) := by
  rw [← filter_depthFirst]
  exact t.breadthFirst_perm.filter _

theorem mem_variableNodes {s t : Tree α} :
    s ∈ t.variableNodes ↔ ∃ x ∈ t.distinctNames, s = .var x := by
  rw [t.variableNodes_perm.mem_iff]
  simp only [List.mem_map, mem_distinctNames, eq_comm]

/-- **Both traversals visit the whole tree.** The loop over the queue ends
after as many turns as the tree has nodes, and has visited the levels from
the root down, each from left to right. Depth first the same nodes are
visited in another order. Nodes and levels are as many as are counted
otherwise, and the variable nodes are those of the variables. -/
theorem traversals_visit_all (t : Tree α) :
    (∀ n, (Walk.step^[n] ⟨[t], []⟩).queue = [] ↔ t.size ≤ n) ∧
      Walk.step^[t.size] ⟨[t], []⟩ = ⟨[], t.breadthFirst⟩ ∧
      t.breadthFirst = t.levels.flatten ∧
      t.levels = (List.range t.depth).map t.row ∧ (∀ n, t.row n = [] ↔ t.depth ≤ n) ∧
      t.breadthFirst.Perm t.depthFirst ∧
      t.breadthFirst.length = t.size ∧ t.depthFirst.length = t.size ∧
      t.levels.length = t.depth ∧ t.levels.length = t.levelCount ∧
      ∀ s, s ∈ t.variableNodes ↔ ∃ x ∈ t.distinctNames, s = .var x := by
  have hperm := t.breadthFirst_perm
  have hsize := t.length_depthFirst
  have hdepth := t.length_levels
  exact ⟨t.queue_iterate_eq_nil_iff, t.step_iterate_size, t.breadthFirst_eq_flatten_levels,
    t.levels_eq, fun _ => t.row_eq_nil_iff, hperm, hperm.length_eq.trans hsize, hsize, hdepth,
    hdepth.trans t.levelCount_eq_depth.symm, fun _ => mem_variableNodes⟩

end Fluxion.Tree
