/-
The normal form of simplification. `Redex` lists the nodes that a rule
rewrites, one shape for each rule; a simplified tree contains none of them
(`normal_simplify`).

One pass from the leaves up is enough because every rule answers with a
literal, with one of its operands, with an operand under a sign, or with a
node that the rules before it have let pass. Only a product goes through the
rules a second time, when a literal merges with one behind it, and its
operands are smaller then.

Two literals whose product is not finite change places and stay. The rules
have looked at one order of them and the result has the other, so the
product must not depend on the order.
-/
import Fluxion.Simplification
import Fluxion.Tree.Traversal
import Fluxion.Proofs.Double.Product

namespace Fluxion.Tree

variable {α : Type} [Scalar α]

/-- A node that a rule of simplification rewrites. -/
inductive Redex : Tree α → Prop
  /-- Two literals are folded if the value is finite. -/
  | fold {op a b} (h : Scalar.isFinite (Scalar.binary op a b) = true) :
      Redex (.binary op (.const a) (.const b))
  | addZero {l r} (h : r.isLiteral 0 = true) : Redex (.binary .add l r)
  | zeroAdd {l r} (h : l.isLiteral 0 = true) : Redex (.binary .add l r)
  | subZero {l r} (h : r.isLiteral 0 = true) : Redex (.binary .sub l r)
  | zeroSub {l r} (h : l.isLiteral 0 = true) : Redex (.binary .sub l r)
  | subSelf {l r} (h : l.eq r = true) : Redex (.binary .sub l r)
  | mulZero {l r} (h : r.isLiteral 0 = true) : Redex (.binary .mul l r)
  | zeroMul {l r} (h : l.isLiteral 0 = true) : Redex (.binary .mul l r)
  | mulOne {l r} (h : r.isLiteral 1 = true) : Redex (.binary .mul l r)
  | oneMul {l r} (h : l.isLiteral 1 = true) : Redex (.binary .mul l r)
  | negOneMul {a r} (h : Scalar.eq a (Scalar.neg Scalar.one) = true) :
      Redex (.binary .mul (.const a) r)
  /-- A literal goes in front. -/
  | mulConst {l b} (h : ∀ a, l ≠ .const a) : Redex (.binary .mul l (.const b))
  /-- Two literals in front are merged if their product is finite. -/
  | merge {a b f} (h : Scalar.isFinite (Scalar.mul a b) = true) :
      Redex (.binary .mul (.const a) (.binary .mul (.const b) f))
  | divOne {l r} (h : r.isLiteral 1 = true) : Redex (.binary .div l r)
  | zeroDiv {l r} (h : l.isLiteral 0 = true) (hr : r.isLiteral 0 = false) :
      Redex (.binary .div l r)
  | divSelf {l r} (h : l.eq r = true) (hr : r.isLiteral 0 = false) : Redex (.binary .div l r)
  | powZero {l r} (h : r.isLiteral 0 = true) : Redex (.binary .pow l r)
  | powOne {l r} (h : r.isLiteral 1 = true) : Redex (.binary .pow l r)
  | onePow {l r} (h : l.isLiteral 1 = true) : Redex (.binary .pow l r)
  | negNeg {u} : Redex (.unary .neg (.unary .neg u))
  | negConst {a} : Redex (.unary .neg (.const a))
  /-- A function of a literal is folded if the value is integral. -/
  | function {op a} (hop : op ≠ .neg) (hfin : Scalar.isFinite (Scalar.unary op a) = true)
      (hint : Scalar.isInteger (Scalar.unary op a) = true) : Redex (.unary op (.const a))
  | decided {rel a b} : Redex (.relate rel (.const a) (.const b))
  | selected {a t f} : Redex (.branch (.const a) t f)

/-- No node is a redex. -/
def Normal (t : Tree α) : Prop := ∀ s ∈ t.depthFirst, ¬s.Redex

/-! ## Normal trees by their root -/

@[simp] theorem normal_var (x : String) : (Tree.var x : Tree α).Normal := by
  intro s hs h
  obtain rfl := List.mem_singleton.mp hs
  cases h

@[simp] theorem normal_const (a : α) : (Tree.const a).Normal := by
  intro s hs h
  obtain rfl := List.mem_singleton.mp hs
  cases h

variable {op : BinaryOp} {l r u c t f : Tree α}

theorem normal_binary :
    (Tree.binary op l r).Normal ↔ ¬(Tree.binary op l r).Redex ∧ l.Normal ∧ r.Normal := by
  simp [Normal, depthFirst, or_imp, forall_and]

theorem normal_unary {op : UnaryOp} :
    (Tree.unary op u).Normal ↔ ¬(Tree.unary op u).Redex ∧ u.Normal := by
  simp [Normal, depthFirst]

theorem normal_relate {rel : Relation} :
    (Tree.relate rel l r).Normal ↔ ¬(Tree.relate rel l r).Redex ∧ l.Normal ∧ r.Normal := by
  simp [Normal, depthFirst, or_imp, forall_and]

theorem normal_branch :
    (Tree.branch c t f).Normal ↔
      ¬(Tree.branch c t f).Redex ∧ c.Normal ∧ t.Normal ∧ f.Normal := by
  simp [Normal, depthFirst, or_imp, forall_and]

theorem isLiteral_of_ne_const {n : Nat} (h : ∀ a, t ≠ .const a) : t.isLiteral n = false := by
  cases t with
  | const a => exact absurd rfl (h a)
  | _ => rfl

/-! ## Signs and functions -/

theorem normal_negate (h : u.Normal) : (negate u).Normal := by
  unfold negate
  split
  · exact (normal_unary.mp h).2
  · exact normal_const _
  · next hneg hconst =>
    refine normal_unary.mpr ⟨?_, h⟩
    intro hredex
    cases hredex with
    | negNeg => exact hneg _ rfl
    | negConst => exact hconst _ rfl
    | function hop => exact hop rfl

theorem normal_apply {op : UnaryOp} (hop : op ≠ .neg) (h : u.Normal) : (apply op u).Normal := by
  unfold apply
  split
  · next a =>
    dsimp only
    split
    · exact normal_const _
    · next hfold =>
      refine normal_unary.mpr ⟨?_, h⟩
      intro hredex
      cases hredex with
      | negConst => exact hop rfl
      | function _ hfin hint => exact hfold (by rw [hfin, hint]; rfl)
  · next hconst =>
    refine normal_unary.mpr ⟨?_, h⟩
    intro hredex
    cases hredex with
    | negNeg => exact hop rfl
    | negConst => exact hop rfl
    | function => exact hconst _ rfl

theorem normal_simplifyUnary {op : UnaryOp} (h : u.Normal) : (simplifyUnary op u).Normal := by
  unfold simplifyUnary
  split
  · exact normal_negate h
  · next hop => exact normal_apply hop h

/-! ## Products -/

theorem foldBinary_eq_none {a b : α} :
    foldBinary op a b = none ↔ Scalar.isFinite (Scalar.binary op a b) = false := by
  simp [foldBinary, Scalar.finite?]

section Product

variable [Std.Commutative (Scalar.mul (α := α))]

theorem normal_unfoldedProduct {a b : α} (h : foldBinary .mul a b = none) :
    (unfoldedProduct a b).Normal := by
  unfold unfoldedProduct
  split
  · exact normal_const _
  split
  · exact normal_const _
  split
  · exact normal_const _
  split
  · exact normal_const _
  · next hzero hb ha hneg =>
    refine normal_binary.mpr ⟨?_, normal_const b, normal_const a⟩
    have hcomm : Scalar.mul b a = Scalar.mul a b := Std.Commutative.comm b a
    have hfold : Scalar.isFinite (Scalar.mul b a) = false := by
      rw [hcomm]
      exact foldBinary_eq_none.mp h
    rw [Bool.or_eq_true, not_or] at hzero
    intro hredex
    cases hredex with
    | fold h' => exact absurd (hfold.symm.trans h') Bool.false_ne_true
    | mulZero h' => exact hzero.1 h'
    | zeroMul h' => exact hzero.2 h'
    | mulOne h' => exact ha h'
    | oneMul h' => exact hb h'
    | negOneMul h' => exact hneg h'
    | mulConst h' => exact h' b rfl

/-- By recursion on the literals that merge. -/
theorem normal_scale (c : α) (h : t.Normal) : (scale c t).Normal := by
  fun_induction scale c t with
  | case1 c a r hr => exact normal_const r
  | case2 c a hr => exact normal_unfoldedProduct hr
  | case3 c a f hc => exact normal_const _
  | case4 c a f _ hc => exact h
  | case5 c a f _ _ hc => exact normal_negate h
  | case6 c a f _ _ _ r hr ih => exact ih (normal_binary.mp h).2.2
  | case7 c a f hzero hone hneg hr =>
    refine normal_binary.mpr ⟨?_, normal_const c, h⟩
    intro hredex
    cases hredex with
    | zeroMul h' => exact hzero h'
    | oneMul h' => exact hone h'
    | negOneMul h' => exact hneg h'
    | merge h' => exact absurd ((foldBinary_eq_none.mp hr).symm.trans h') Bool.false_ne_true
    | mulZero h' => cases h'
    | mulOne h' => cases h'
  | case8 c t _ _ hc => exact normal_const _
  | case9 c t _ _ _ hc => exact h
  | case10 c t _ _ _ _ hc => exact normal_negate h
  | case11 c t hconst hmul hzero hone hneg =>
    refine normal_binary.mpr ⟨?_, normal_const c, h⟩
    intro hredex
    cases hredex with
    | fold h' => exact hconst _ rfl
    | zeroMul h' => exact hzero h'
    | oneMul h' => exact hone h'
    | negOneMul h' => exact hneg h'
    | merge h' => exact hmul _ _ rfl
    | mulConst h' => exact hconst _ rfl
    | mulZero h' => rw [isLiteral_of_ne_const fun a ha => hconst a ha] at h'; cases h'
    | mulOne h' => rw [isLiteral_of_ne_const fun a ha => hconst a ha] at h'; cases h'

theorem normal_product (hl : l.Normal) (hr : r.Normal) : (product l r).Normal := by
  unfold product
  split
  · exact normal_scale _ hr
  · exact normal_scale _ hl
  · next hl' hr' =>
    have hlit {n : Nat} : l.isLiteral n = false := isLiteral_of_ne_const fun a ha => hl' a ha
    have hlit' {n : Nat} : r.isLiteral n = false := isLiteral_of_ne_const fun a ha => hr' a ha
    refine normal_binary.mpr ⟨?_, hl, hr⟩
    intro hredex
    cases hredex with
    | fold => exact hl' _ rfl
    | negOneMul => exact hl' _ rfl
    | mulConst => exact hr' _ rfl
    | merge => exact hl' _ rfl
    | mulZero h => rw [hlit'] at h; cases h
    | zeroMul h => rw [hlit] at h; cases h
    | mulOne h => rw [hlit'] at h; cases h
    | oneMul h => rw [hlit] at h; cases h

end Product

/-! ## The other operations -/

/-- The operands are not two literals with a finite result. -/
def Unfolded (op : BinaryOp) (l r : Tree α) : Prop :=
  ∀ a b, l = .const a → r = .const b → Scalar.isFinite (Scalar.binary op a b) = false

theorem Unfolded.not_isFinite {a b : α} (h : Unfolded op (.const a) (.const b)) :
    ¬Scalar.isFinite (Scalar.binary op a b) = true := by
  rw [h a b rfl rfl]
  exact Bool.false_ne_true

theorem normal_sum (h : Unfolded .add l r) (hl : l.Normal) (hr : r.Normal) : (sum l r).Normal := by
  unfold sum
  split
  · exact hl
  split
  · exact hr
  · next hr₀ hl₀ =>
    refine normal_binary.mpr ⟨?_, hl, hr⟩
    intro hredex
    cases hredex with
    | fold h' => exact h.not_isFinite h'
    | addZero h' => exact hr₀ h'
    | zeroAdd h' => exact hl₀ h'

theorem normal_difference (h : Unfolded .sub l r) (hl : l.Normal) (hr : r.Normal) :
    (difference l r).Normal := by
  unfold difference
  split
  · exact hl
  split
  · exact normal_negate hr
  split
  · exact normal_const _
  · next hr₀ hl₀ hself =>
    refine normal_binary.mpr ⟨?_, hl, hr⟩
    intro hredex
    cases hredex with
    | fold h' => exact h.not_isFinite h'
    | subZero h' => exact hr₀ h'
    | zeroSub h' => exact hl₀ h'
    | subSelf h' => exact hself h'

theorem normal_quotient (h : Unfolded .div l r) (hl : l.Normal) (hr : r.Normal) :
    (quotient l r).Normal := by
  unfold quotient
  split
  · exact hl
  split
  · exact normal_const _
  split
  · exact normal_const _
  · next hr₁ hl₀ hself =>
    refine normal_binary.mpr ⟨?_, hl, hr⟩
    intro hredex
    cases hredex with
    | fold h' => exact h.not_isFinite h'
    | divOne h' => exact hr₁ h'
    | zeroDiv h' hr' => exact hl₀ (by rw [h', hr']; rfl)
    | divSelf h' hr' => exact hself (by rw [h', hr']; rfl)

theorem normal_power (h : Unfolded .pow l r) (hl : l.Normal) (hr : r.Normal) :
    (power l r).Normal := by
  unfold power
  split
  · exact normal_const _
  split
  · exact hl
  split
  · exact normal_const _
  · next hr₀ hr₁ hl₁ =>
    refine normal_binary.mpr ⟨?_, hl, hr⟩
    intro hredex
    cases hredex with
    | fold h' => exact h.not_isFinite h'
    | powZero h' => exact hr₀ h'
    | powOne h' => exact hr₁ h'
    | onePow h' => exact hl₁ h'

/-! ## Whole trees -/

section Trees

variable [Std.Commutative (Scalar.mul (α := α))]

theorem normal_combine (h : Unfolded op l r) (hl : l.Normal) (hr : r.Normal) :
    (combine op l r).Normal := by
  cases op with
  | add => exact normal_sum h hl hr
  | sub => exact normal_difference h hl hr
  | mul => exact normal_product hl hr
  | div => exact normal_quotient h hl hr
  | pow => exact normal_power h hl hr

theorem normal_simplifyBinary (hl : l.Normal) (hr : r.Normal) :
    (simplifyBinary op l r).Normal := by
  unfold simplifyBinary
  split
  · next a b =>
    split
    · exact normal_const _
    · next hfold =>
      refine normal_combine ?_ hl hr
      intro a' b' ha hb
      cases ha
      cases hb
      exact foldBinary_eq_none.mp hfold
  · next hconst => exact normal_combine (fun a b ha hb => (hconst a b ha hb).elim) hl hr

omit [Std.Commutative (Scalar.mul (α := α))] in
theorem normal_simplifyRelation {rel : Relation} (hl : l.Normal) (hr : r.Normal) :
    (simplifyRelation rel l r).Normal := by
  unfold simplifyRelation
  split
  · split
    · exact normal_const _
    · exact normal_const _
  · next hconst =>
    refine normal_relate.mpr ⟨?_, hl, hr⟩
    intro hredex
    cases hredex with
    | decided => exact hconst _ _ rfl rfl

omit [Std.Commutative (Scalar.mul (α := α))] in
theorem normal_simplifyBranch (hc : c.Normal) (ht : t.Normal) (hf : f.Normal) :
    (simplifyBranch c t f).Normal := by
  unfold simplifyBranch
  split
  · split
    · exact ht
    · exact hf
  · next hconst =>
    refine normal_branch.mpr ⟨?_, hc, ht, hf⟩
    intro hredex
    cases hredex with
    | selected => exact hconst _ rfl

/-- Simplified trees are normal. By induction on the tree: the rules of a
node are given normal operands. -/
theorem normal_simplify (t : Tree α) : t.simplify.Normal := by
  induction t with
  | var x => exact normal_var x
  | const a => exact normal_const a
  | binary op l r hl hr => exact normal_simplifyBinary hl hr
  | unary op u hu => exact normal_simplifyUnary hu
  | relate rel l r hl hr => exact normal_simplifyRelation hl hr
  | branch c t f hc ht hf => exact normal_simplifyBranch hc ht hf

/-- **No node of a simplified tree is a redex.** -/
theorem not_redex_of_mem_simplify (t : Tree α) {s : Tree α} (hs : s ∈ t.simplify.depthFirst) :
    ¬s.Redex :=
  normal_simplify t s hs

end Trees

/-- `2 ^ 600` times a quotient that becomes `2 ^ 700`. -/
theorem not_redex_of_overflow :
    ¬(Tree.binary .mul (.const (Float.ofBits 0x6BB0000000000000))
      (.const (Float.ofBits 0x6570000000000000))).Redex :=
  not_redex_of_mem_simplify
    (.binary .mul (.const (Float.ofBits 0x6570000000000000))
      (.binary .div (.const (Float.ofBits 0x6BB0000000000000)) one))
    (.head _)

end Fluxion.Tree
