/-
Simplification done twice. A simplified tree is normal, so the second pass
finds no rule to apply, with one exception: the rule that puts a literal in
front does not ask whether the other factor is one too. Two literals whose
product is not finite therefore change places at every pass, and the second
pass undoes what the first one did unless they are equal.

That a pass changes something cannot be hidden by another rule. A rule keeps
its node, exchanges the factors of a product, or leaves fewer nodes than it
found (`rewrites_simplifyBinary`), so a tree that comes out as it went in
has kept every node.
-/
import Fluxion.Proofs.Simplification.Bound
import Fluxion.Proofs.Simplification.Normal
import Fluxion.Proofs.Tree.Over
import Fluxion.Proofs.Tree.Equality
import Fluxion.Proofs.Double.Spelling

namespace Fluxion.Tree

variable {α : Type} [Scalar α]

/-- A product of two literals that differ. -/
inductive UnequalProduct : Tree α → Prop
  | intro {a b} (h : Scalar.eq a b = false) : UnequalProduct (.binary .mul (.const a) (.const b))

/-! ## Nodes that no rule rewrites -/

variable {op : BinaryOp} {l r t : Tree α}

theorem scale_eq_self {c : α} (h : ¬(Tree.binary .mul (.const c) t).Redex)
    (hc : ∀ a, t = .const a → c = a) : scale c t = .binary .mul (.const c) t := by
  have hzero : ¬Scalar.eq c Scalar.zero = true := fun h' => h (.zeroMul h')
  have hone : ¬Scalar.eq c Scalar.one = true := fun h' => h (.oneMul h')
  have hneg : ¬Scalar.eq c (Scalar.neg Scalar.one) = true := fun h' => h (.negOneMul h')
  unfold scale
  split
  · next a =>
    obtain rfl := hc a rfl
    have hfold : foldBinary .mul c c = none :=
      foldBinary_eq_none.mpr (Bool.eq_false_iff.mpr fun h' => h (.fold h'))
    simp only [hfold, unfoldedProduct, hzero, hone, hneg, Bool.or_self, Bool.false_eq_true,
      if_false]
  · next a f =>
    have hfold : foldBinary .mul c a = none :=
      foldBinary_eq_none.mpr (Bool.eq_false_iff.mpr fun h' => h (.merge h'))
    simp only [hfold, hzero, hone, hneg, Bool.false_eq_true, if_false]
  · simp only [hzero, hone, hneg, Bool.false_eq_true, if_false]

theorem product_eq_self (h : ¬(Tree.binary .mul l r).Redex)
    (hc : ∀ a b, l = .const a → r = .const b → a = b) : product l r = .binary .mul l r := by
  unfold product
  split
  · exact scale_eq_self h fun b hb => hc _ b rfl hb
  · next b hl => exact absurd (.mulConst hl) h
  · rfl

theorem combine_eq_self (h : ¬(Tree.binary op l r).Redex)
    (hc : ∀ a b, op = .mul → l = .const a → r = .const b → a = b) :
    combine op l r = .binary op l r := by
  cases op with
  | add =>
    have hr : ¬r.isLiteral 0 = true := fun h' => h (.addZero h')
    have hl : ¬l.isLiteral 0 = true := fun h' => h (.zeroAdd h')
    simp only [combine, sum, hr, hl, Bool.false_eq_true, if_false]
  | sub =>
    have hr : ¬r.isLiteral 0 = true := fun h' => h (.subZero h')
    have hl : ¬l.isLiteral 0 = true := fun h' => h (.zeroSub h')
    have hself : ¬l.eq r = true := fun h' => h (.subSelf h')
    simp only [combine, difference, hr, hl, hself, Bool.false_eq_true, if_false]
  | mul => exact product_eq_self h fun a b => hc a b rfl
  | div =>
    have hr : ¬r.isLiteral 1 = true := fun h' => h (.divOne h')
    have hl : ¬(l.isLiteral 0 && !r.isLiteral 0) = true := by
      rw [Bool.and_eq_true, Bool.not_eq_true']
      exact fun h' => h (.zeroDiv h'.1 h'.2)
    have hself : ¬(l.eq r && !r.isLiteral 0) = true := by
      rw [Bool.and_eq_true, Bool.not_eq_true']
      exact fun h' => h (.divSelf h'.1 h'.2)
    simp only [combine, quotient, hr, hl, hself, Bool.false_eq_true, if_false]
  | pow =>
    have hr : ¬r.isLiteral 0 = true := fun h' => h (.powZero h')
    have hr' : ¬r.isLiteral 1 = true := fun h' => h (.powOne h')
    have hl : ¬l.isLiteral 1 = true := fun h' => h (.onePow h')
    simp only [combine, power, hr, hr', hl, Bool.false_eq_true, if_false]

theorem simplifyBinary_eq_self (h : ¬(Tree.binary op l r).Redex)
    (hc : ∀ a b, op = .mul → l = .const a → r = .const b → a = b) :
    simplifyBinary op l r = .binary op l r := by
  unfold simplifyBinary
  split
  · next a b =>
    have hfold : foldBinary op a b = none :=
      foldBinary_eq_none.mpr (Bool.eq_false_iff.mpr fun h' => h (.fold h'))
    simp only [hfold]
    exact combine_eq_self h hc
  · exact combine_eq_self h hc

theorem simplifyUnary_eq_self {op : UnaryOp} {u : Tree α} (h : ¬(Tree.unary op u).Redex) :
    simplifyUnary op u = .unary op u := by
  unfold simplifyUnary
  split
  · unfold negate
    split
    · exact absurd .negNeg h
    · exact absurd .negConst h
    · rfl
  · next hop =>
    unfold apply
    split
    · next a =>
      have hfold : ¬(Scalar.isFinite (Scalar.unary op a) && Scalar.isInteger (Scalar.unary op a)) =
          true := by
        rw [Bool.and_eq_true]
        exact fun h' => h (.function hop h'.1 h'.2)
      simp only [hfold, Bool.false_eq_true, if_false]
    · rfl

theorem simplifyRelation_eq_self {rel : Relation} (h : ¬(Tree.relate rel l r).Redex) :
    simplifyRelation rel l r = .relate rel l r := by
  unfold simplifyRelation
  split
  · exact absurd .decided h
  · rfl

theorem simplifyBranch_eq_self {c t f : Tree α} (h : ¬(Tree.branch c t f).Redex) :
    simplifyBranch c t f = .branch c t f := by
  unfold simplifyBranch
  split
  · exact absurd .selected h
  · rfl

/-- A normal tree is left alone if the literals it multiplies are the same. -/
theorem simplify_eq_self (h : t.Normal)
    (hc : ∀ a b, .binary .mul (.const a) (.const b) ∈ t.depthFirst → a = b) : t.simplify = t := by
  induction t with
  | var x => rfl
  | const a => rfl
  | binary op l r hl hr =>
    obtain ⟨hroot, hnl, hnr⟩ := normal_binary.mp h
    have hl' := hl hnl fun a b hab => hc a b (by simp [depthFirst, hab])
    have hr' := hr hnr fun a b hab => hc a b (by simp [depthFirst, hab])
    rw [simplify, hl', hr']
    refine simplifyBinary_eq_self hroot ?_
    rintro a b rfl rfl rfl
    exact hc a b (.head _)
  | unary op u hu =>
    obtain ⟨hroot, hnu⟩ := normal_unary.mp h
    have hu' := hu hnu fun a b hab => hc a b (by simp [depthFirst, hab])
    rw [simplify, hu']
    exact simplifyUnary_eq_self hroot
  | relate rel l r hl hr =>
    obtain ⟨hroot, hnl, hnr⟩ := normal_relate.mp h
    have hl' := hl hnl fun a b hab => hc a b (by simp [depthFirst, hab])
    have hr' := hr hnr fun a b hab => hc a b (by simp [depthFirst, hab])
    rw [simplify, hl', hr']
    exact simplifyRelation_eq_self hroot
  | branch c t f hc' ht hf =>
    obtain ⟨hroot, hnc, hnt, hnf⟩ := normal_branch.mp h
    have hc'' := hc' hnc fun a b hab => hc a b (by simp [depthFirst, hab])
    have ht' := ht hnt fun a b hab => hc a b (by simp [depthFirst, hab])
    have hf' := hf hnf fun a b hab => hc a b (by simp [depthFirst, hab])
    rw [simplify, hc'', ht', hf']
    exact simplifyBranch_eq_self hroot

/-! ## What a rule leaves -/

/-- What becomes of an operation: the node itself, the product with its
literal in front, or something smaller. -/
inductive Rewrites (op : BinaryOp) (l r : Tree α) : Tree α → Prop
  | kept : Rewrites op l r (.binary op l r)
  | exchanged {b : α} (hop : op = .mul) (hr : r = .const b) :
      Rewrites op l r (.binary .mul (.const b) l)
  | shrunk {s} (h : s.size ≤ l.size + r.size) : Rewrites op l r s

omit [Scalar α] in
theorem Rewrites.size_le (h : Rewrites op l r t) : t.size ≤ 1 + l.size + r.size := by
  cases h with
  | kept => exact Nat.le_refl _
  | exchanged hop hr => subst hr; simp only [size]; omega
  | shrunk h => omega

theorem rewrites_unfoldedProduct (a b : α) :
    Rewrites .mul (.const a) (.const b) (unfoldedProduct a b) := by
  unfold unfoldedProduct
  split
  · exact .shrunk (by simp [zero, size])
  split
  · exact .shrunk (by simp [size])
  split
  · exact .shrunk (by simp [size])
  split
  · exact .shrunk (within_negate _).size_le
  · exact .exchanged rfl rfl

/-- By recursion on the literals that merge: each time there are two nodes
fewer. -/
theorem rewrites_scale (c : α) (t : Tree α) : Rewrites .mul (.const c) t (scale c t) := by
  fun_induction scale c t with
  | case1 c a s hs => exact .shrunk (by simp [size])
  | case2 c a hs => exact rewrites_unfoldedProduct c a
  | case3 c a f hc => exact .shrunk (by simp [zero, size])
  | case4 c a f _ hc => exact .shrunk (by simp [size])
  | case5 c a f _ _ hc => exact .shrunk (within_negate _).size_le
  | case6 c a f _ _ _ s hs ih =>
    have := ih.size_le
    simp only [size] at this
    exact .shrunk (by simp only [size]; omega)
  | case7 c a f _ _ _ hs => exact .kept
  | case8 c t _ _ hc => exact .shrunk (by simp [zero, size])
  | case9 c t _ _ _ hc => exact .shrunk (by simp [size])
  | case10 c t _ _ _ _ hc => exact .shrunk (within_negate _).size_le
  | case11 c t _ _ _ _ _ => exact .kept

theorem rewrites_product (l r : Tree α) : Rewrites .mul l r (product l r) := by
  unfold product
  split
  · exact rewrites_scale _ _
  · next b hl =>
    have hs := rewrites_scale b l
    generalize scale b l = s at hs ⊢
    cases hs with
    | kept => exact .exchanged rfl rfl
    | exchanged _ h => exact absurd h (hl _)
    | shrunk h => exact .shrunk (by omega)
  · exact .kept

theorem rewrites_combine (op : BinaryOp) (l r : Tree α) : Rewrites op l r (combine op l r) := by
  have hl := l.size_pos
  have hr := r.size_pos
  cases op with
  | add =>
    simp only [combine, sum]
    split
    · exact .shrunk (by omega)
    split
    · exact .shrunk (by omega)
    · exact .kept
  | sub =>
    simp only [combine, difference]
    split
    · exact .shrunk (by omega)
    split
    · have : (negate r).size ≤ 1 + r.size := (within_negate r).size_le
      exact .shrunk (by omega)
    split
    · exact .shrunk (by simp only [zero, size]; omega)
    · exact .kept
  | mul => exact rewrites_product l r
  | div =>
    simp only [combine, quotient]
    split
    · exact .shrunk (by omega)
    split
    · exact .shrunk (by simp only [zero, size]; omega)
    split
    · exact .shrunk (by simp only [one, size]; omega)
    · exact .kept
  | pow =>
    simp only [combine, power]
    split
    · exact .shrunk (by simp only [one, size]; omega)
    split
    · exact .shrunk (by omega)
    split
    · exact .shrunk (by simp only [one, size]; omega)
    · exact .kept

theorem rewrites_simplifyBinary (op : BinaryOp) (l r : Tree α) :
    Rewrites op l r (simplifyBinary op l r) := by
  unfold simplifyBinary
  split
  · split
    · exact .shrunk (by simp [size])
    · exact rewrites_combine op _ _
  · exact rewrites_combine op _ _

theorem simplifyUnary_cases (op : UnaryOp) (u : Tree α) :
    simplifyUnary op u = .unary op u ∨ (simplifyUnary op u).size ≤ u.size := by
  unfold simplifyUnary
  split
  · unfold negate
    split
    · exact .inr (by simp only [size]; omega)
    · exact .inr (Nat.le_refl _)
    · exact .inl rfl
  · unfold apply
    split
    · dsimp only
      split
      · exact .inr (Nat.le_refl _)
      · exact .inl rfl
    · exact .inl rfl

theorem simplifyRelation_cases (rel : Relation) (l r : Tree α) :
    simplifyRelation rel l r = .relate rel l r ∨
      (simplifyRelation rel l r).size ≤ l.size + r.size := by
  unfold simplifyRelation
  split
  · refine .inr ?_
    split <;> simp [one, zero, size]
  · exact .inl rfl

theorem simplifyBranch_cases (c t f : Tree α) :
    simplifyBranch c t f = .branch c t f ∨
      (simplifyBranch c t f).size ≤ c.size + t.size + f.size := by
  unfold simplifyBranch
  split
  · refine .inr ?_
    split <;> simp only [size] <;> omega
  · exact .inl rfl

/-! ## Trees that come out as they went in -/

theorem size_eq_of_same {a b : Tree α} (h : a.same b = true) : a.size = b.size := by
  induction a generalizing b with
  | var x => cases b <;> simp only [same, Bool.false_eq_true] at h; rfl
  | const a => cases b <;> simp only [same, Bool.false_eq_true] at h; rfl
  | binary op l r hl hr =>
    cases b <;> simp only [same, Bool.false_eq_true, Bool.and_eq_true] at h
    rw [size, size, hl h.1.2, hr h.2]
  | unary op u hu =>
    cases b <;> simp only [same, Bool.false_eq_true, Bool.and_eq_true] at h
    rw [size, size, hu h.2]
  | relate rel l r hl hr =>
    cases b <;> simp only [same, Bool.false_eq_true, Bool.and_eq_true] at h
    rw [size, size, hl h.1.2, hr h.2]
  | branch c t f hc ht hf =>
    cases b <;> simp only [same, Bool.false_eq_true, Bool.and_eq_true] at h
    rw [size, size, hc h.1.1, ht h.1.2, hf h.2]

/-- Two literals that come out as they went in were equal. -/
theorem eq_of_same_simplifyBinary {a b : α}
    (h : (simplifyBinary .mul (.const a) (.const b)).same (.binary .mul (.const a) (.const b)) =
      true) : Scalar.eq a b = true := by
  cases hfold : foldBinary .mul a b with
  | some c => simp [simplifyBinary, hfold, same] at h
  | none =>
    simp only [simplifyBinary, hfold, combine, product, scale] at h
    unfold unfoldedProduct at h
    split at h
    · cases h
    split at h
    · cases h
    split at h
    · cases h
    split at h
    · cases h
    · simp only [same, Bool.and_eq_true] at h
      exact h.2

/-- An operation that comes out as it went in has kept its operands, or
they are two literals. -/
theorem same_operands (h : (simplifyBinary op l.simplify r.simplify).same (.binary op l r) = true) :
    (l.simplify.same l = true ∧ r.simplify.same r = true) ∨
      ∃ a b, l = .const a ∧ r = .const b := by
  have hsize := size_eq_of_same h
  have hl := (within_simplify l).size_le
  have hr := (within_simplify r).size_le
  have hs := rewrites_simplifyBinary op l.simplify r.simplify
  generalize simplifyBinary op l.simplify r.simplify = s at h hsize hs
  cases hs with
  | kept =>
    simp only [same, Bool.and_eq_true] at h
    exact .inl ⟨h.1.2, h.2⟩
  | exchanged hop hb =>
    -- The literal in front is compared with `l`, which is one then, and `r` with it.
    simp only [same, Bool.and_eq_true] at h
    obtain ⟨⟨-, hbl⟩, hlr⟩ := h
    cases l <;> simp only [same, Bool.false_eq_true] at hbl
    cases r <;> simp only [simplify, same, Bool.false_eq_true] at hlr
    exact .inr ⟨_, _, rfl, rfl⟩
  | shrunk h' =>
    simp only [size] at hsize
    omega

theorem same_operand {op : UnaryOp} {u : Tree α}
    (h : (simplifyUnary op u.simplify).same (.unary op u) = true) : u.simplify.same u = true := by
  have hsize := size_eq_of_same h
  have hu := (within_simplify u).size_le
  rcases simplifyUnary_cases op u.simplify with hkept | hless
  · simp only [hkept, same, Bool.and_eq_true] at h
    exact h.2
  · simp only [size] at hsize
    omega

theorem same_compared {rel : Relation}
    (h : (simplifyRelation rel l.simplify r.simplify).same (.relate rel l r) = true) :
    l.simplify.same l = true ∧ r.simplify.same r = true := by
  have hsize := size_eq_of_same h
  have hl := (within_simplify l).size_le
  have hr := (within_simplify r).size_le
  rcases simplifyRelation_cases rel l.simplify r.simplify with hkept | hless
  · simp only [hkept, same, Bool.and_eq_true] at h
    exact ⟨h.1.2, h.2⟩
  · simp only [size] at hsize
    omega

theorem same_branches {c t f : Tree α}
    (h : (simplifyBranch c.simplify t.simplify f.simplify).same (.branch c t f) = true) :
    c.simplify.same c = true ∧ t.simplify.same t = true ∧ f.simplify.same f = true := by
  have hsize := size_eq_of_same h
  have hc := (within_simplify c).size_le
  have ht := (within_simplify t).size_le
  have hf := (within_simplify f).size_le
  rcases simplifyBranch_cases c.simplify t.simplify f.simplify with hkept | hless
  · simp only [hkept, same, Bool.and_eq_true] at h
    exact ⟨h.1.1, h.1.2, h.2⟩
  · simp only [size] at hsize
    omega

theorem not_unequalProduct_of_mem_const {a : α} {s : Tree α} (hs : s ∈ (Tree.const a).depthFirst) :
    ¬s.UnequalProduct := by
  obtain rfl := List.mem_singleton.mp hs
  rintro ⟨_⟩

/-- A tree that comes out as it went in has no product of unequal literals. -/
theorem not_unequalProduct_of_same (h : t.simplify.same t = true) :
    ∀ s ∈ t.depthFirst, ¬s.UnequalProduct := by
  induction t with
  | var x =>
    intro s hs
    obtain rfl := List.mem_singleton.mp hs
    rintro ⟨_⟩
  | const a => exact fun s hs => not_unequalProduct_of_mem_const hs
  | binary op l r hl hr =>
    intro s hs
    rcases List.mem_cons.mp hs with rfl | hs
    · rintro ⟨hab⟩
      rw [eq_of_same_simplifyBinary h] at hab
      cases hab
    rcases same_operands h with ⟨hl', hr'⟩ | ⟨a, b, rfl, rfl⟩
    · rcases List.mem_append.mp hs with hs | hs
      · exact hl hl' s hs
      · exact hr hr' s hs
    · rcases List.mem_append.mp hs with hs | hs
      · exact not_unequalProduct_of_mem_const hs
      · exact not_unequalProduct_of_mem_const hs
  | unary op u hu =>
    intro s hs
    rcases List.mem_cons.mp hs with rfl | hs
    · rintro ⟨_⟩
    · exact hu (same_operand h) s hs
  | relate rel l r hl hr =>
    obtain ⟨hl', hr'⟩ := same_compared h
    intro s hs
    rcases List.mem_cons.mp hs with rfl | hs
    · rintro ⟨_⟩
    rcases List.mem_append.mp hs with hs | hs
    · exact hl hl' s hs
    · exact hr hr' s hs
  | branch c t f hc ht hf =>
    obtain ⟨hc', ht', hf'⟩ := same_branches h
    intro s hs
    rcases List.mem_cons.mp hs with rfl | hs
    · rintro ⟨_⟩
    rcases List.mem_append.mp hs with hs | hs
    · rcases List.mem_append.mp hs with hs | hs
      · exact hc hc' s hs
      · exact ht ht' s hs
    · exact hf hf' s hs

/-! ## Doubles -/

theorem same_self {t : Tree Float} (ht : t.AllFinite) : t.same t = true := by
  induction t with
  | var x => exact beq_self_eq_true x
  | const a => exact Double.eq_self ht
  | binary op l r hl hr => simp only [same, beq_self_eq_true, hl ht.1, hr ht.2, Bool.and_self]
  | unary op u hu => simp only [same, beq_self_eq_true, hu ht, Bool.and_self]
  | relate rel l r hl hr => simp only [same, beq_self_eq_true, hl ht.1, hr ht.2, Bool.and_self]
  | branch c t f hc ht' hf => simp only [same, hc ht.1, ht' ht.2.1, hf ht.2.2, Bool.and_self]

/-- **A second pass changes a tree exactly if the first leaves a product of
two unequal literals.** -/
theorem simplify_idempotent_iff {t : Tree Float} (ht : t.AllFinite) :
    t.simplify.simplify.eq t.simplify = true ↔ ∀ s ∈ t.simplify.depthFirst, ¬s.UnequalProduct := by
  have hover : t.Over fun _ => True := over_iff.mpr ⟨ht, fun x _ => trivial⟩
  have hfin : t.simplify.AllFinite := (over_iff.mp (over_simplify hover)).1
  rw [eq_eq_same]
  constructor
  · exact not_unequalProduct_of_same
  · intro h
    have hself : t.simplify.simplify = t.simplify := by
      refine simplify_eq_self (normal_simplify t) ?_
      intro a b hab
      have heq : Scalar.eq a b = true := by
        by_contra hne
        exact h _ hab ⟨Bool.eq_false_iff.mpr hne⟩
      have hmul : (Scalar.mul a b).isFinite = false :=
        Bool.eq_false_iff.mpr fun hab' => normal_simplify t _ hab (.fold hab')
      exact Double.eq_of_mul_not_isFinite heq hmul
    rw [hself]
    exact same_self hfin

/-- `2 ^ 1023`. -/
def huge : Float := .ofBits 0x7FE0000000000000

/-- `(2 ^ 1023 * 2 ^ 1023) * x`. -/
def hugeSquare : Tree Float :=
  .binary .mul (.binary .mul (.const huge) (.const huge)) (.var "x")

/-- Equal literals change places unnoticed. -/
theorem simplify_idempotent_hugeSquare :
    hugeSquare.simplify.simplify.eq hugeSquare.simplify = true := by
  have hfin : hugeSquare.AllFinite := ⟨⟨rfl, rfl⟩, trivial⟩
  refine (simplify_idempotent_iff hfin).mpr ?_
  have hnodes : hugeSquare.simplify.depthFirst =
      [hugeSquare, .binary .mul (.const huge) (.const huge), .const huge, .const huge, .var "x"] :=
    rfl
  have heq : Scalar.eq huge huge = true := rfl
  rw [hnodes]
  intro s hs hu
  simp only [List.mem_cons, List.not_mem_nil, or_false] at hs
  rcases hs with rfl | rfl | rfl | rfl | rfl <;> cases hu
  next h => exact absurd (heq.symm.trans h) (by decide)

/-- `10 * 1e308`. -/
def hugeTenfold : Tree Float :=
  .binary .mul (.const 10) (.const (Float.ofBits 0x7FE1CCF385EBC8A0))

/-- It is simplified to `1e308 * 10`, and that to `10 * 1e308`. -/
theorem simplify_not_idempotent :
    hugeTenfold.AllFinite ∧ hugeTenfold.simplify.simplify.eq hugeTenfold.simplify = false := by
  refine ⟨⟨rfl, rfl⟩, ?_⟩
  rw [eq_eq_same]
  rfl

end Fluxion.Tree
