/-
Simplification never fails, whatever the kernels compute. A rule leaves parts
of what it found, or a literal that it makes: the value of a fold, which is
asked first whether it is finite, or an opposite. So nothing changes if every
literal is made by the constructor that refuses what is not finite
(`checkedSimplify_eq`), also one that another rule merges or drops later.
-/
import Fluxion.Double.Arithmetic
import Fluxion.Proofs.Double
import Fluxion.Proofs.Simplification.Bound

namespace Fluxion.Tree

variable {α : Type} [Scalar α]

/-! ## Every literal checked -/

/-- `negate`, the opposite of a literal checked. -/
def checkedNegate : Tree α → Except (Fault α) (Tree α)
  | .unary .neg u => .ok u
  | .const a => literal (Scalar.neg a)
  | t => .ok (.unary .neg t)

/-- `apply`, the value of the function checked. -/
def checkedApply (op : UnaryOp) : Tree α → Except (Fault α) (Tree α)
  | .const a =>
    let r := Scalar.unary op a
    if Scalar.isFinite r && Scalar.isInteger r then literal r else .ok (.unary op (.const a))
  | t => .ok (.unary op t)

def checkedUnary (op : UnaryOp) (u : Tree α) : Except (Fault α) (Tree α) :=
  match op with
  | .neg => checkedNegate u
  | op => checkedApply op u

/-- `unfoldedProduct`, the opposite checked. -/
def checkedUnfolded (a b : α) : Except (Fault α) (Tree α) :=
  if Scalar.eq a Scalar.zero || Scalar.eq b Scalar.zero then .ok zero
  else if Scalar.eq b Scalar.one then .ok (.const a)
  else if Scalar.eq a Scalar.one then .ok (.const b)
  else if Scalar.eq b (Scalar.neg Scalar.one) then checkedNegate (.const a)
  else .ok (.binary .mul (.const b) (.const a))

/-- `scale`, every coefficient checked, also one that merges with the next. -/
def checkedScale (c : α) : Tree α → Except (Fault α) (Tree α)
  | .const a =>
    match foldBinary .mul c a with
    | some r => literal r
    | none => checkedUnfolded c a
  | .binary .mul (.const a) f =>
    if Scalar.eq c Scalar.zero then .ok zero
    else if Scalar.eq c Scalar.one then .ok (.binary .mul (.const a) f)
    else if Scalar.eq c (Scalar.neg Scalar.one) then checkedNegate (.binary .mul (.const a) f)
    else
      match foldBinary .mul c a with
      | some r => do
        let _ ← literal r
        checkedScale r f
      | none => .ok (.binary .mul (.const c) (.binary .mul (.const a) f))
  | t =>
    if Scalar.eq c Scalar.zero then .ok zero
    else if Scalar.eq c Scalar.one then .ok t
    else if Scalar.eq c (Scalar.neg Scalar.one) then checkedNegate t
    else .ok (.binary .mul (.const c) t)

def checkedProduct : Tree α → Tree α → Except (Fault α) (Tree α)
  | .const a, r => checkedScale a r
  | l, .const b => checkedScale b l
  | l, r => .ok (.binary .mul l r)

def checkedDifference (l r : Tree α) : Except (Fault α) (Tree α) :=
  if r.isLiteral 0 then .ok l
  else if l.isLiteral 0 then checkedNegate r
  else if l.eq r then .ok zero
  else .ok (.binary .sub l r)

/-- The rules of the other operations make no literal. -/
def checkedCombine (op : BinaryOp) (l r : Tree α) : Except (Fault α) (Tree α) :=
  match op with
  | .sub => checkedDifference l r
  | .mul => checkedProduct l r
  | op => .ok (combine op l r)

/-- `simplifyBinary`, the value of a fold checked. -/
def checkedBinary (op : BinaryOp) (l r : Tree α) : Except (Fault α) (Tree α) :=
  match l, r with
  | .const a, .const b =>
    match foldBinary op a b with
    | some c => literal c
    | none => checkedCombine op l r
  | _, _ => checkedCombine op l r

/-- Simplification in which every literal that a rule makes is refused
unless it is finite. -/
def checkedSimplify : Tree α → Except (Fault α) (Tree α)
  | .var x => .ok (.var x)
  | .const a => .ok (.const a)
  | .binary op l r => do
    let left ← l.checkedSimplify
    let right ← r.checkedSimplify
    checkedBinary op left right
  | .unary op u => do
    let operand ← u.checkedSimplify
    checkedUnary op operand
  | .relate rel l r => do
    let left ← l.checkedSimplify
    let right ← r.checkedSimplify
    return simplifyRelation rel left right
  | .branch c t f => do
    let test ← c.checkedSimplify
    let yes ← t.checkedSimplify
    let no ← f.checkedSimplify
    return simplifyBranch test yes no

section Checked

variable {P : String → Prop} {t l r u : Tree α}

theorem literal_of_isFinite {a : α} (h : Scalar.isFinite a = true) : literal a = .ok (.const a) :=
  literal_eq_ok.mpr ⟨h, rfl⟩

theorem literal_of_fold {op : BinaryOp} {a b c : α} (h : foldBinary op a b = some c) :
    literal c = .ok (.const c) :=
  literal_of_isFinite (over_foldBinary (P := fun _ => True) h)

theorem checkedApply_eq (op : UnaryOp) (u : Tree α) : checkedApply op u = .ok (apply op u) := by
  cases u with
  | const a =>
    simp only [checkedApply, apply]
    split
    · next h => exact literal_of_isFinite (Bool.and_eq_true_iff.mp h).1
    · rfl
  | _ => rfl

variable [Signed α]

theorem checkedNegate_eq (hu : u.Over P) : checkedNegate u = .ok (negate u) := by
  cases u with
  | const a => exact literal_of_isFinite (Signed.isFinite_neg hu)
  | unary op u => cases op <;> rfl
  | _ => rfl

theorem checkedUnary_eq (op : UnaryOp) (hu : u.Over P) :
    checkedUnary op u = .ok (simplifyUnary op u) := by
  cases op with
  | neg => exact checkedNegate_eq hu
  | _ => exact checkedApply_eq _ u

theorem checkedUnfolded_eq {a : α} (ha : (Tree.const a).Over P) (b : α) :
    checkedUnfolded a b = .ok (unfoldedProduct a b) := by
  unfold checkedUnfolded unfoldedProduct
  split
  · rfl
  split
  · rfl
  split
  · rfl
  split
  · exact checkedNegate_eq ha
  · rfl

/-- By recursion on the literals that merge; each of them is finite. -/
theorem checkedScale_eq {c : α} (hc : (Tree.const c).Over P) (ht : t.Over P) :
    checkedScale c t = .ok (scale c t) := by
  fun_induction scale c t with
  | case1 c a s hs => simp only [checkedScale, hs, literal_of_fold hs]
  | case2 c a hs => simp only [checkedScale, hs, checkedUnfolded_eq hc a]
  | case3 c a f hzero => simp only [checkedScale, hzero, if_true]
  | case4 c a f hzero hone =>
    simp only [checkedScale, hzero, hone, Bool.false_eq_true, if_false, if_true]
  | case5 c a f hzero hone hneg =>
    simp only [checkedScale, hzero, hone, hneg, Bool.false_eq_true, if_false, if_true]
    exact checkedNegate_eq ht
  | case6 c a f hzero hone hneg s hs ih =>
    simp only [checkedScale, hzero, hone, hneg, hs, literal_of_fold hs, Bool.false_eq_true,
      if_false]
    exact ih (over_foldBinary hs) ht.2
  | case7 c a f hzero hone hneg hs =>
    simp only [checkedScale, hzero, hone, hneg, hs, Bool.false_eq_true, if_false]
  | case8 c t _ _ hzero => simp only [checkedScale, hzero, if_true]
  | case9 c t _ _ hzero hone =>
    simp only [checkedScale, hzero, hone, Bool.false_eq_true, if_false, if_true]
  | case10 c t _ _ hzero hone hneg =>
    simp only [checkedScale, hzero, hone, hneg, Bool.false_eq_true, if_false, if_true]
    exact checkedNegate_eq ht
  | case11 c t _ _ hzero hone hneg =>
    simp only [checkedScale, hzero, hone, hneg, Bool.false_eq_true, if_false]

theorem checkedProduct_eq (hl : l.Over P) (hr : r.Over P) :
    checkedProduct l r = .ok (product l r) := by
  cases l with
  | const a => exact checkedScale_eq hl hr
  | _ =>
    cases r with
    | const b => exact checkedScale_eq hr hl
    | _ => rfl

theorem checkedDifference_eq (l : Tree α) (hr : r.Over P) :
    checkedDifference l r = .ok (difference l r) := by
  unfold checkedDifference difference
  split
  · rfl
  split
  · exact checkedNegate_eq hr
  split
  · rfl
  · rfl

theorem checkedCombine_eq (op : BinaryOp) (hl : l.Over P) (hr : r.Over P) :
    checkedCombine op l r = .ok (combine op l r) := by
  cases op with
  | sub => exact checkedDifference_eq l hr
  | mul => exact checkedProduct_eq hl hr
  | _ => rfl

theorem checkedBinary_eq (op : BinaryOp) (hl : l.Over P) (hr : r.Over P) :
    checkedBinary op l r = .ok (simplifyBinary op l r) := by
  cases l with
  | const a =>
    cases r with
    | const b =>
      cases hfold : foldBinary op a b with
      | some c => simp only [checkedBinary, simplifyBinary, hfold, literal_of_fold hfold]
      | none =>
        simp only [checkedBinary, simplifyBinary, hfold]
        exact checkedCombine_eq op hl hr
    | _ => exact checkedCombine_eq op hl hr
  | _ => exact checkedCombine_eq op hl hr

theorem checkedSimplify_eq (ht : t.Over P) : t.checkedSimplify = .ok t.simplify := by
  induction t with
  | var x => rfl
  | const a => rfl
  | binary op l r hl hr =>
    rw [checkedSimplify, hl ht.1, hr ht.2]
    exact checkedBinary_eq op (over_simplify ht.1) (over_simplify ht.2)
  | unary op u hu =>
    rw [checkedSimplify, hu ht]
    exact checkedUnary_eq op (over_simplify ht)
  | relate rel l r hl hr =>
    rw [checkedSimplify, hl ht.1, hr ht.2]
    rfl
  | branch c t f hc ht' hf =>
    rw [checkedSimplify, hc ht.1, ht' ht.2.1, hf ht.2.2]
    rfl

end Checked

/-- **Simplification never grows a tree and never fails.** Whatever the
kernels compute, a simplified tree has at most the nodes, the depth and the
variables of the tree. If the literals of the tree are finite, and opposites
of finite numbers are, then a check of every literal that is made refuses
none. -/
theorem simplify_bounded (t : Tree α) :
    t.simplify.size ≤ t.size ∧ t.simplify.depth ≤ t.depth ∧
      (∀ x ∈ t.simplify.distinctNames, x ∈ t.distinctNames) ∧
      (Signed α → t.AllFinite →
        t.checkedSimplify = .ok t.simplify ∧ t.simplify.AllFinite) := by
  simp only [mem_distinctNames]
  have h := within_simplify t
  refine ⟨h.size_le, h.depth_le, h.names, fun _ ht => ?_⟩
  have hover : t.Over fun _ => True := over_iff.mpr ⟨ht, fun _ _ => trivial⟩
  exact ⟨checkedSimplify_eq hover, (over_iff.mp (over_simplify hover)).1⟩

/-- `2 ^ 1022`. -/
def halfRange : Float := .ofBits 0x7FD0000000000000

/-- `2 ^ 1022 * (2 * (x * 2)) - 0`. -/
def nearlyFull : Tree Float :=
  .binary .sub
    (.binary .mul (.const halfRange)
      (.binary .mul (.const 2) (.binary .mul (.var "x") (.const 2)))) (.const 0)

/-- `2 ^ 1022 * (4 * x)`. -/
def nearlyFullShort : Tree Float :=
  .binary .mul (.const halfRange)
    (.binary .mul (.const (.ofBits 0x4010000000000000)) (.var "x"))

/-- The small literals merge, and that they cannot merge with the large one is
found out before there is a literal. -/
theorem simplify_bounded_nearlyFull :
    nearlyFull.AllFinite ∧ Signed Float ∧
      nearlyFull.checkedSimplify = .ok nearlyFullShort ∧ nearlyFullShort.AllFinite := by
  have hfin : nearlyFull.AllFinite := ⟨⟨rfl, rfl, trivial, rfl⟩, rfl⟩
  have hshort : nearlyFull.simplify = nearlyFullShort := rfl
  rw [← hshort]
  exact ⟨hfin, inferInstance, (simplify_bounded nearlyFull).2.2.2 inferInstance hfin⟩

end Fluxion.Tree
