/-
Simplification never grows a tree. What a rule leaves has at most the nodes,
the depth and the variables of the node that it is applied to (`Within`). As
every kind of node keeps this and one rule passes it on to the next, the
bound is one against the tree as it was, not against its simplified parts
(`within_simplify`).
-/
import Fluxion.Proofs.Tree.Over

namespace Fluxion.Tree

variable {α : Type}

/-! ## Trees within others -/

/-- At most as many nodes, at most as deep, and no other variables. -/
structure Within (s t : Tree α) : Prop where
  size_le : s.size ≤ t.size
  depth_le : s.depth ≤ t.depth
  names : ∀ x ∈ s.names, x ∈ t.names

theorem depth_le_of_children {s t : Tree α}
    (h : ∀ c ∈ s.children, ∃ d ∈ t.children, c.depth ≤ d.depth) : s.depth ≤ t.depth := by
  obtain ⟨n, hn⟩ : ∃ n, t.depth = n + 1 := Nat.exists_eq_add_one.mpr t.depth_pos
  rw [hn]
  refine depth_le_succ_iff.mpr fun c hc => ?_
  obtain ⟨d, hd, hcd⟩ := h c hc
  exact Nat.le_trans hcd (depth_le_succ_iff.mp (Nat.le_of_eq hn) d hd)

namespace Within

variable {c t f c' t' f' l r l' r' s u u' : Tree α}

theorem refl (t : Tree α) : t.Within t := ⟨Nat.le_refl _, Nat.le_refl _, fun _ h => h⟩

theorem trans (h : s.Within t) (h' : t.Within u) : s.Within u where
  size_le := Nat.le_trans h.size_le h'.size_le
  depth_le := Nat.le_trans h.depth_le h'.depth_le
  names x hx := h'.names x (h.names x hx)

/-- A literal is as small as a tree can be. -/
theorem const (a : α) (t : Tree α) : (Tree.const a).Within t :=
  ⟨t.size_pos, t.depth_pos, fun _ hx => by cases hx⟩

theorem of_mem_children (h : s ∈ t.children) : s.Within t where
  size_le := Nat.le_of_lt (size_lt_of_mem_children h)
  depth_le := by
    obtain ⟨n, hn⟩ : ∃ n, t.depth = n + 1 := Nat.exists_eq_add_one.mpr t.depth_pos
    have := depth_le_succ_iff.mp (Nat.le_of_eq hn) s h
    omega
  names _ := mem_names_of_mem_children h

theorem left (op : BinaryOp) (l r : Tree α) : l.Within (.binary op l r) :=
  of_mem_children (by simp [children])

theorem right (op : BinaryOp) (l r : Tree α) : r.Within (.binary op l r) :=
  of_mem_children (by simp [children])

theorem operand (op : UnaryOp) (u : Tree α) : u.Within (.unary op u) :=
  of_mem_children (by simp [children])

/-! ### Every kind of node keeps the bound -/

theorem binary (op : BinaryOp) (hl : l.Within l') (hr : r.Within r') :
    (Tree.binary op l r).Within (.binary op l' r') where
  size_le := by
    have := hl.size_le
    have := hr.size_le
    simp only [size]
    omega
  depth_le := depth_le_of_children (by simp [children, hl.depth_le, hr.depth_le])
  names x hx := (List.mem_append.mp hx).elim (fun h => List.mem_append_left _ (hl.names x h))
    fun h => List.mem_append_right _ (hr.names x h)

theorem relate (rel : Relation) (hl : l.Within l') (hr : r.Within r') :
    (Tree.relate rel l r).Within (.relate rel l' r') where
  size_le := by
    have := hl.size_le
    have := hr.size_le
    simp only [size]
    omega
  depth_le := depth_le_of_children (by simp [children, hl.depth_le, hr.depth_le])
  names x hx := (List.mem_append.mp hx).elim (fun h => List.mem_append_left _ (hl.names x h))
    fun h => List.mem_append_right _ (hr.names x h)

theorem unary (op : UnaryOp) (hu : u.Within u') : (Tree.unary op u).Within (.unary op u') where
  size_le := Nat.add_le_add_left hu.size_le 1
  depth_le := Nat.add_le_add_left hu.depth_le 1
  names := hu.names

theorem branch (hc : c.Within c') (ht : t.Within t') (hf : f.Within f') :
    (Tree.branch c t f).Within (.branch c' t' f') where
  size_le := by
    have := hc.size_le
    have := ht.size_le
    have := hf.size_le
    simp only [size]
    omega
  depth_le := depth_le_of_children (by simp [children, hc.depth_le, ht.depth_le, hf.depth_le])
  names x hx := by
    simp only [Tree.names, List.mem_append] at hx ⊢
    exact hx.imp (Or.imp (hc.names x) (ht.names x)) (hf.names x)

/-- The operands of an operation exchanged. -/
theorem swap (op : BinaryOp) (l r : Tree α) : (Tree.binary op r l).Within (.binary op l r) where
  size_le := by simp only [size]; omega
  depth_le := depth_le_of_children (by simp [children])
  names x hx := List.mem_append.mpr (List.mem_append.mp hx).symm

/-- The right operand alone, under a function or a sign. -/
theorem unary_right (op : UnaryOp) (op' : BinaryOp) (l r : Tree α) :
    (Tree.unary op r).Within (.binary op' l r) where
  size_le := by simp only [size]; omega
  depth_le := depth_le_of_children (by simp [children])
  names x hx := List.mem_append_right _ hx

end Within

/-! ## One rule for each kind of node -/

variable [Scalar α]

theorem within_negate (u : Tree α) : (negate u).Within (.unary .neg u) := by
  unfold negate
  split
  · exact (Within.operand .neg _).trans (.operand .neg _)
  · exact .const _ _
  · exact .refl _

theorem within_simplifyUnary (op : UnaryOp) (u : Tree α) :
    (simplifyUnary op u).Within (.unary op u) := by
  unfold simplifyUnary
  split
  · exact within_negate u
  · unfold apply
    split
    · dsimp only
      split
      · exact .const _ _
      · exact .refl _
    · exact .refl _

theorem within_unfoldedProduct (a b : α) :
    (unfoldedProduct a b).Within (.binary .mul (.const a) (.const b)) := by
  unfold unfoldedProduct
  split
  · exact .const _ _
  split
  · exact .const _ _
  split
  · exact .const _ _
  split
  · exact .const _ _
  · exact .swap .mul _ _

/-- By recursion on the literals that merge. -/
theorem within_scale (c : α) (t : Tree α) : (scale c t).Within (.binary .mul (.const c) t) := by
  fun_induction scale c t with
  | case1 c a s hs => exact .const _ _
  | case2 c a hs => exact within_unfoldedProduct c a
  | case3 c a f hc => exact .const _ _
  | case4 c a f _ hc => exact .right .mul _ _
  | case5 c a f _ _ hc => exact (within_negate _).trans (.unary_right .neg .mul _ _)
  | case6 c a f _ _ _ s hs ih => exact ih.trans (.binary .mul (.const s _) (.right .mul _ _))
  | case7 c a f _ _ _ hs => exact .refl _
  | case8 c t _ _ hc => exact .const _ _
  | case9 c t _ _ _ hc => exact .right .mul _ _
  | case10 c t _ _ _ _ hc => exact (within_negate _).trans (.unary_right .neg .mul _ _)
  | case11 c t _ _ _ _ _ => exact .refl _

theorem within_product (l r : Tree α) : (product l r).Within (.binary .mul l r) := by
  unfold product
  split
  · exact within_scale _ _
  · exact (within_scale _ _).trans (.swap .mul _ _)
  · exact .refl _

theorem within_combine (op : BinaryOp) (l r : Tree α) :
    (combine op l r).Within (.binary op l r) := by
  cases op with
  | add =>
    simp only [combine, sum]
    split
    · exact .left .add l r
    split
    · exact .right .add l r
    · exact .refl _
  | sub =>
    simp only [combine, difference]
    split
    · exact .left .sub l r
    split
    · exact (within_negate r).trans (.unary_right .neg .sub l r)
    split
    · exact .const _ _
    · exact .refl _
  | mul => exact within_product l r
  | div =>
    simp only [combine, quotient]
    split
    · exact .left .div l r
    split
    · exact .const _ _
    split
    · exact .const _ _
    · exact .refl _
  | pow =>
    simp only [combine, power]
    split
    · exact .const _ _
    split
    · exact .left .pow l r
    split
    · exact .const _ _
    · exact .refl _

theorem within_simplifyBinary (op : BinaryOp) (l r : Tree α) :
    (simplifyBinary op l r).Within (.binary op l r) := by
  unfold simplifyBinary
  split
  · split
    · exact .const _ _
    · exact within_combine op _ _
  · exact within_combine op _ _

theorem within_simplifyRelation (rel : Relation) (l r : Tree α) :
    (simplifyRelation rel l r).Within (.relate rel l r) := by
  unfold simplifyRelation
  split
  · split <;> exact .const _ _
  · exact .refl _

theorem within_simplifyBranch (c t f : Tree α) :
    (simplifyBranch c t f).Within (.branch c t f) := by
  unfold simplifyBranch
  split
  · split
    · exact .of_mem_children (by simp [children])
    · exact .of_mem_children (by simp [children])
  · exact .refl _

theorem within_simplify (t : Tree α) : t.simplify.Within t := by
  induction t with
  | var x => exact .refl _
  | const a => exact .refl _
  | binary op l r hl hr => exact (within_simplifyBinary op _ _).trans (.binary op hl hr)
  | unary op u hu => exact (within_simplifyUnary op _).trans (.unary op hu)
  | relate rel l r hl hr => exact (within_simplifyRelation rel _ _).trans (.relate rel hl hr)
  | branch c t f hc ht hf => exact (within_simplifyBranch _ _ _).trans (.branch hc ht hf)

end Fluxion.Tree
