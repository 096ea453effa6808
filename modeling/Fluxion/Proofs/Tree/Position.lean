/-
Equality of trees, position by position. A position is the way from the root
down, as the places of the children that it takes; a label is what a node
says apart from its children. Trees coincide if at every position either
both have a node, and the labels match, or neither has one.

Node by node this is what `same` compares (`same_iff_coincides`), and a
fingerprint looked at first does not change it. So equality is an equivalence
as far as numeric equality is one, which on doubles is everywhere but at
not-a-number.
-/
import Mathlib.Data.List.Forall2
import Fluxion.Proofs.Simplification.Idempotent

namespace Fluxion

variable {α : Type}

/-- What a node says apart from its children. -/
inductive Label (α : Type) where
  | var (name : String)
  | const (value : α)
  | binary (op : BinaryOp)
  | unary (op : UnaryOp)
  | relate (rel : Relation)
  | branch

/-- The same kind, operator and name, and a numerically equal value. -/
inductive Label.Matches [Scalar α] : Label α → Label α → Prop
  | var (x : String) : Matches (.var x) (.var x)
  | const {a b : α} (h : Scalar.eq a b = true) : Matches (.const a) (.const b)
  | binary (op : BinaryOp) : Matches (.binary op) (.binary op)
  | unary (op : UnaryOp) : Matches (.unary op) (.unary op)
  | relate (rel : Relation) : Matches (.relate rel) (.relate rel)
  | branch : Matches .branch .branch

namespace Tree

def label : Tree α → Label α
  | .var x => .var x
  | .const a => .const a
  | .binary op _ _ => .binary op
  | .unary op _ => .unary op
  | .relate rel _ _ => .relate rel
  | .branch _ _ _ => .branch

/-! ## Positions -/

def at? : List ℕ → Tree α → Option (Tree α)
  | [], t => some t
  | i :: p, t => t.children[i]?.bind (at? p)

def labelAt? (p : List ℕ) (t : Tree α) : Option (Label α) := (t.at? p).map label

theorem labelAt?_nil (t : Tree α) : t.labelAt? [] = some t.label := rfl

theorem labelAt?_cons (i : ℕ) (p : List ℕ) (t : Tree α) :
    t.labelAt? (i :: p) = t.children[i]?.bind (labelAt? p) := by
  rw [labelAt?, at?, Option.map_bind]
  rfl

/-- What holds of a tree when it holds of its children holds of every tree. -/
theorem forall_of_children {P : Tree α → Prop} (h : ∀ t, (∀ u ∈ t.children, P u) → P t)
    (t : Tree α) : P t := by
  induction t with
  | var x => exact h _ (by simp [children])
  | const a => exact h _ (by simp [children])
  | binary op l r hl hr => exact h _ (by simp [children, hl, hr])
  | unary op u hu => exact h _ (by simp [children, hu])
  | relate rel l r hl hr => exact h _ (by simp [children, hl, hr])
  | branch c t f hc ht hf => exact h _ (by simp [children, hc, ht, hf])

variable [Scalar α] {a b c : Tree α}

/-- The trees have nodes at the same positions, and the labels there match. -/
def Coincides (a b : Tree α) : Prop :=
  ∀ p, Option.Rel Label.Matches (a.labelAt? p) (b.labelAt? p)

theorem length_children (h : a.label.Matches b.label) :
    a.children.length = b.children.length := by
  cases a <;> cases b <;> first | rfl | cases h

/-- Trees coincide if their roots match and their children coincide. -/
theorem coincides_iff :
    a.Coincides b ↔ a.label.Matches b.label ∧ List.Forall₂ Coincides a.children b.children := by
  constructor
  · intro h
    have hroot : a.label.Matches b.label := by
      cases h []
      assumption
    refine ⟨hroot, List.forall₂_of_length_eq_of_get (length_children hroot) ?_⟩
    intro i hi hj p
    have hat := h (i :: p)
    rw [labelAt?_cons, labelAt?_cons, List.getElem?_eq_getElem hi,
      List.getElem?_eq_getElem hj] at hat
    exact hat
  · rintro ⟨hroot, hchildren⟩ p
    cases p with
    | nil => exact .some hroot
    | cons i p =>
      rw [labelAt?_cons, labelAt?_cons]
      by_cases hi : i < a.children.length
      · have hj : i < b.children.length := hchildren.length_eq ▸ hi
        rw [List.getElem?_eq_getElem hi, List.getElem?_eq_getElem hj]
        exact hchildren.get hi hj p
      · -- Neither tree has an `i`-th child, so neither has a node further down.
        have hj : ¬i < b.children.length := hchildren.length_eq ▸ hi
        rw [List.getElem?_eq_none (not_lt.mp hi), List.getElem?_eq_none (not_lt.mp hj)]
        exact .none

/-- The comparison node by node, one node at a time. -/
theorem same_iff : a.same b = true ↔
    a.label.Matches b.label ∧ List.Forall₂ (fun u w => u.same w = true) a.children b.children := by
  constructor
  · intro h
    cases a <;> cases b <;>
      simp only [same, Bool.false_eq_true, Bool.and_eq_true, beq_iff_eq] at h
    case var.var => subst h; exact ⟨.var _, .nil⟩
    case const.const => exact ⟨.const h, .nil⟩
    case binary.binary =>
      obtain ⟨⟨rfl, hl⟩, hr⟩ := h
      exact ⟨.binary _, .cons hl (.cons hr .nil)⟩
    case unary.unary =>
      obtain ⟨rfl, hu⟩ := h
      exact ⟨.unary _, .cons hu .nil⟩
    case relate.relate =>
      obtain ⟨⟨rfl, hl⟩, hr⟩ := h
      exact ⟨.relate _, .cons hl (.cons hr .nil)⟩
    case branch.branch =>
      obtain ⟨⟨hc, ht⟩, hf⟩ := h
      exact ⟨.branch, .cons hc (.cons ht (.cons hf .nil))⟩
  · rintro ⟨hroot, hchildren⟩
    cases a <;> cases b <;> cases hroot <;>
      simp only [children, List.forall₂_cons, List.Forall₂.nil, and_true] at hchildren
    case var.var => simp [same]
    case const.const h => exact h
    case binary.binary => simp [same, hchildren]
    case unary.unary => simp [same, hchildren]
    case relate.relate => simp [same, hchildren]
    case branch.branch => simp [same, hchildren]

/-- **Node by node is position by position.** -/
theorem same_iff_coincides (a b : Tree α) : a.same b = true ↔ a.Coincides b := by
  refine forall_of_children (P := fun a => ∀ b, a.same b = true ↔ a.Coincides b)
    (fun a ih b => ?_) a b
  rw [same_iff, coincides_iff]
  refine and_congr_right fun _ => ⟨fun h => ?_, fun h => ?_⟩
  · exact ((List.forall₂_and_left _ _).mpr ⟨ih, h⟩).imp fun u w huw => (huw.1 w).mp huw.2
  · exact ((List.forall₂_and_left _ _).mpr ⟨ih, h⟩).imp fun u w huw => (huw.1 w).mpr huw.2

/-! ## Equality of trees over doubles -/

section Double

variable {k l m : Label Float} {a b c : Tree Float}

theorem matches_symm (h : k.Matches l) : l.Matches k := by
  cases h with
  | @const x y h =>
    have heq : (x == y) = true := h
    exact .const (BEq.symm heq)
  | _ => constructor

theorem matches_trans (h : k.Matches l) (h' : l.Matches m) : k.Matches m := by
  cases h with
  | @const x y h =>
    cases h' with
    | @const _ z h' =>
      have heq : (x == y) = true := h
      have heq' : (y == z) = true := h'
      exact .const (BEq.trans heq heq')
  | _ => exact h'

theorem Coincides.symm (h : a.Coincides b) : b.Coincides a := by
  intro p
  have hp := h p
  generalize a.labelAt? p = k, b.labelAt? p = l at hp
  cases hp with
  | some h => exact .some (matches_symm h)
  | none => exact .none

theorem Coincides.trans (h : a.Coincides b) (h' : b.Coincides c) : a.Coincides c := by
  intro p
  have hp := h p
  have hp' := h' p
  generalize a.labelAt? p = k, b.labelAt? p = l, c.labelAt? p = m at hp hp'
  cases hp with
  | some h =>
    cases hp' with
    | some h' => exact .some (matches_trans h h')
  | none => exact hp'

/-- **What equality of trees is.** With any fingerprint that equal numbers
share, be it the same for all, trees are equal if they coincide at every
position. On trees with finite literals this is an equivalence; a node with
matching label and equal children is equal; and equal trees have one
fingerprint. -/
theorem equal_is_structural {d : Digest Float} (hd : d.Respects) :
    (∀ a b : Tree Float, a.equal d b = true ↔ a.Coincides b) ∧
    Equivalence (fun a b : { t : Tree Float // t.AllFinite } => a.1.equal d b.1 = true) ∧
    (∀ a b : Tree Float, a.label.Matches b.label →
      List.Forall₂ (fun u w => u.equal d w = true) a.children b.children → a.equal d b = true) ∧
    ∀ a b : Tree Float, a.equal d b = true → a.digest d = b.digest d := by
  simp only [equal_eq_same hd]
  refine ⟨same_iff_coincides, ⟨fun a => same_self a.2, fun h => ?_, fun h h' => ?_⟩,
    fun a b hroot hchildren => same_iff.mpr ⟨hroot, hchildren⟩,
    fun a b h => digest_eq_of_same hd h⟩
  · rw [same_iff_coincides] at h ⊢
    exact h.symm
  · rw [same_iff_coincides] at h h' ⊢
    exact h.trans h'

/-- One fingerprint for everything. -/
def blind : Digest Float := ⟨fun _ => 0, fun _ => 0, fun _ => 0, fun _ => 0⟩

def lessBy (a : Float) : Tree Float := .binary .sub (.var "x") (.const a)

/-- The two zeros are equal, `x - 0` and `x - 1` are not, and no fingerprint
tells any of them apart. -/
theorem equal_signed_zeros :
    blind.Respects ∧ (∀ a b : Tree Float, a.digest blind = b.digest blind) ∧
    (lessBy 0).Coincides (lessBy (-0)) ∧ (lessBy 0).equal blind (lessBy (-0)) = true ∧
    ¬ (lessBy 0).Coincides (lessBy 1) ∧ (lessBy 0).equal blind (lessBy 1) = false := by
  have hblind : blind.Respects := fun _ _ _ => rfl
  have hequal : (lessBy 0).equal blind (lessBy (-0)) = true :=
    (equal_is_structural hblind).2.2.1 _ _ (.binary .sub) (.cons rfl (.cons rfl .nil))
  have hdiffers : (lessBy 0).equal blind (lessBy 1) = false := rfl
  refine ⟨hblind, fun a b => ?_, ((equal_is_structural hblind).1 _ _).mp hequal, hequal,
    fun h => ?_, hdiffers⟩
  · cases a <;> cases b <;> rfl
  · rw [((equal_is_structural hblind).1 _ _).mpr h] at hdiffers
    cases hdiffers

end Double

end Tree

end Fluxion
