/-
Renaming the variables of a tree. What is made of a tree by simplifying,
differentiating or regrouping depends on names only through the question
whether two of them are the same. So for an injective renaming it makes no
difference whether a tree is renamed before or after.
-/
import Fluxion.Proofs.Text.Lexeme
import Fluxion.Proofs.Tree.Equality
import Fluxion.Proofs.Tree.Over

namespace Fluxion

open Text

/-- A renaming of identifiers to identifiers that keeps different ones
different. -/
structure Renaming where
  name : String → String
  isIdentifier {x : String} (h : IsIdentifier x) : IsIdentifier (name x)
  injective {x y : String} (hx : IsIdentifier x) (hy : IsIdentifier y) (h : name x = name y) : x = y

theorem Renaming.name_beq (σ : Renaming) {x y : String} (hx : IsIdentifier x)
    (hy : IsIdentifier y) : (σ.name x == σ.name y) = (x == y) := by
  rw [Bool.eq_iff_iff, beq_iff_eq, beq_iff_eq]
  exact ⟨σ.injective hx hy, congrArg σ.name⟩

namespace Tree

variable {α : Type} {σ : Renaming} {v : String}

/-- The tree with its variables renamed. -/
def rename (σ : Renaming) : Tree α → Tree α
  | .var x => .var (σ.name x)
  | .const a => .const a
  | .binary op l r => .binary op (l.rename σ) (r.rename σ)
  | .unary op u => .unary op (u.rename σ)
  | .relate rel l r => .relate rel (l.rename σ) (r.rename σ)
  | .branch c t f => .branch (c.rename σ) (t.rename σ) (f.rename σ)

end Tree

/-- The fault as it is for the renamed trees. -/
def Fault.rename {α : Type} (σ : Renaming) : Fault α → Fault α
  | .unbound x => .unbound (σ.name x)
  | .undefined t => .undefined (t.rename σ)
  | .unsupported t v => .unsupported (t.rename σ) (σ.name v)
  | .tooDeep limit t v => .tooDeep limit (t.rename σ) (σ.name v)
  | e => e

/-- The outcome as it is for the renamed trees, `f` being what renaming does
to a result. -/
def Renaming.outcome (σ : Renaming) {α β γ : Type} (f : β → γ) :
    Except (Fault α) β → Except (Fault α) γ
  | .ok b => .ok (f b)
  | .error e => .error (e.rename σ)

namespace Tree

variable {α : Type} {σ : Renaming} {v : String}

theorem rename_ne_const {t : Tree α} (h : ∀ a, t ≠ .const a) : ∀ a, t.rename σ ≠ .const a := by
  cases t with
  | const a => exact absurd rfl (h a)
  | _ => exact fun _ => nofun

theorem rename_ne_mul_const {t : Tree α} (h : ∀ a f, t ≠ .binary .mul (.const a) f) :
    ∀ a f, t.rename σ ≠ .binary .mul (.const a) f := by
  intro a f ht
  cases t <;> simp only [rename, reduceCtorEq, binary.injEq] at ht
  next op l r =>
    obtain ⟨rfl, hl, -⟩ := ht
    cases l <;> simp only [rename, reduceCtorEq] at hl
    exact h _ r rfl

variable [Scalar α]

theorem over_rename {t : Tree α} (h : t.Over IsIdentifier) : (t.rename σ).Over IsIdentifier := by
  induction t with
  | var x => exact σ.isIdentifier h
  | const a => exact h
  | binary op l r hl hr => exact ⟨hl h.1, hr h.2⟩
  | unary op u hu => exact hu h
  | relate rel l r hl hr => exact ⟨hl h.1, hr h.2⟩
  | branch c t f hc ht hf => exact ⟨hc h.1, ht h.2.1, hf h.2.2⟩

@[simp] theorem isLiteral_rename (n : Nat) (t : Tree α) :
    (t.rename σ).isLiteral n = t.isLiteral n := by
  cases t <;> rfl

@[simp] theorem rename_zero : (zero : Tree α).rename σ = zero := rfl

@[simp] theorem rename_one : (one : Tree α).rename σ = one := rfl

@[simp] theorem rename_two : (two : Tree α).rename σ = two := rfl

/-! ## Names and equality -/

theorem mentions_rename {t : Tree α} (ht : t.Over IsIdentifier) (hv : IsIdentifier v) :
    (t.rename σ).mentions (σ.name v) = t.mentions v := by
  induction t with
  | var x => exact σ.name_beq ht hv
  | const a => rfl
  | binary op l r hl hr => rw [rename, mentions, mentions, hl ht.1, hr ht.2]
  | unary op u hu => exact hu ht
  | relate rel l r hl hr => rw [rename, mentions, mentions, hl ht.1, hr ht.2]
  | branch c t f hc htt hf => rw [rename, mentions, mentions, hc ht.1, htt ht.2.1, hf ht.2.2]

theorem same_rename {a b : Tree α} (ha : a.Over IsIdentifier) (hb : b.Over IsIdentifier) :
    (a.rename σ).same (b.rename σ) = a.same b := by
  induction a generalizing b with
  | var x =>
    cases b with
    | var y => exact σ.name_beq ha hb
    | _ => rfl
  | const a => cases b <;> rfl
  | binary op l r hl hr =>
    cases b with
    | binary op' l' r' => simp only [rename, same, hl ha.1 hb.1, hr ha.2 hb.2]
    | _ => rfl
  | unary op u hu =>
    cases b with
    | unary op' u' => simp only [rename, same, hu (b := u') ha hb]
    | _ => rfl
  | relate rel l r hl hr =>
    cases b with
    | relate rel' l' r' => simp only [rename, same, hl ha.1 hb.1, hr ha.2 hb.2]
    | _ => rfl
  | branch c t f hc ht hf =>
    cases b with
    | branch c' t' f' =>
      simp only [rename, same, hc ha.1 hb.1, ht ha.2.1 hb.2.1, hf ha.2.2 hb.2.2]
    | _ => rfl

theorem eq_rename [Fingerprinted α] {a b : Tree α} (ha : a.Over IsIdentifier)
    (hb : b.Over IsIdentifier) : (a.rename σ).eq (b.rename σ) = a.eq b := by
  rw [eq_eq_same, eq_eq_same, same_rename ha hb]

/-! ## Simplification -/

theorem negate_rename (t : Tree α) : negate (t.rename σ) = (negate t).rename σ := by
  cases t with
  | unary op u => cases op <;> rfl
  | _ => rfl

theorem apply_rename (op : UnaryOp) (t : Tree α) :
    apply op (t.rename σ) = (apply op t).rename σ := by
  cases t with
  | const a =>
    simp only [rename, apply]
    split <;> rfl
  | _ => rfl

theorem simplifyUnary_rename (op : UnaryOp) (t : Tree α) :
    simplifyUnary op (t.rename σ) = (simplifyUnary op t).rename σ := by
  cases op with
  | neg => exact negate_rename t
  | _ => exact apply_rename _ t

theorem rename_unfoldedProduct (a b : α) :
    (unfoldedProduct a b).rename σ = unfoldedProduct a b := by
  unfold unfoldedProduct
  split
  · rfl
  split
  · rfl
  split
  · rfl
  split <;> rfl

/-- A literal in front of anything but a literal or a product with one in
front. -/
theorem scale_other {c : α} {t : Tree α} (hconst : ∀ a, t ≠ .const a)
    (hmul : ∀ a f, t ≠ .binary .mul (.const a) f) :
    scale c t = if Scalar.eq c Scalar.zero then zero
      else if Scalar.eq c Scalar.one then t
      else if Scalar.eq c (Scalar.neg Scalar.one) then negate t
      else .binary .mul (.const c) t := by
  unfold scale
  split
  · exact absurd rfl (hconst _)
  · exact absurd rfl (hmul _ _)
  · rfl

theorem scale_rename (c : α) (t : Tree α) : scale c (t.rename σ) = (scale c t).rename σ := by
  fun_induction scale c t with
  | case1 c a r hr => simp [rename, scale, hr]
  | case2 c a hr => simp [rename, scale, hr, rename_unfoldedProduct]
  | case3 c a f h => simp [rename, scale, h]
  | case4 c a f h₀ h => simp [rename, scale, h₀, h]
  | case5 c a f h₀ h₁ h => simp [rename, scale, h₀, h₁, h, ← negate_rename]
  | case6 c a f h₀ h₁ h₂ r hr ih => simp [rename, scale, h₀, h₁, h₂, hr, ih]
  | case7 c a f h₀ h₁ h₂ hr => simp [rename, scale, h₀, h₁, h₂, hr]
  | case8 c t hconst hmul h =>
    rw [scale_other (rename_ne_const hconst) (rename_ne_mul_const hmul), if_pos h]; rfl
  | case9 c t hconst hmul h₀ h =>
    rw [scale_other (rename_ne_const hconst) (rename_ne_mul_const hmul), if_neg h₀, if_pos h]
  | case10 c t hconst hmul h₀ h₁ h =>
    rw [scale_other (rename_ne_const hconst) (rename_ne_mul_const hmul), if_neg h₀, if_neg h₁,
      if_pos h, negate_rename]
  | case11 c t hconst hmul h₀ h₁ h₂ =>
    rw [scale_other (rename_ne_const hconst) (rename_ne_mul_const hmul), if_neg h₀, if_neg h₁,
      if_neg h₂]
    rfl

theorem product_rename (l r : Tree α) :
    product (l.rename σ) (r.rename σ) = (product l r).rename σ := by
  cases l with
  | const a => exact scale_rename a r
  | _ => cases r with
    | const b => exact scale_rename b _
    | _ => rfl

section

variable [Fingerprinted α]

theorem combine_rename {op : BinaryOp} {l r : Tree α} (hl : l.Over IsIdentifier)
    (hr : r.Over IsIdentifier) :
    combine op (l.rename σ) (r.rename σ) = (combine op l r).rename σ := by
  cases op with
  | add =>
    simp only [combine, sum, isLiteral_rename]
    split
    · rfl
    split <;> rfl
  | sub =>
    simp only [combine, difference, isLiteral_rename, eq_rename hl hr, negate_rename]
    split
    · rfl
    split
    · rfl
    split <;> rfl
  | mul => exact product_rename l r
  | div =>
    simp only [combine, quotient, isLiteral_rename, eq_rename hl hr]
    split
    · rfl
    split
    · rfl
    split <;> rfl
  | pow =>
    simp only [combine, power, isLiteral_rename]
    split
    · rfl
    split
    · rfl
    split <;> rfl

theorem simplifyBinary_rename {op : BinaryOp} {l r : Tree α} (hl : l.Over IsIdentifier)
    (hr : r.Over IsIdentifier) :
    simplifyBinary op (l.rename σ) (r.rename σ) = (simplifyBinary op l r).rename σ := by
  have hcombine : combine op (l.rename σ) (r.rename σ) = (combine op l r).rename σ :=
    combine_rename hl hr
  cases l with
  | const a =>
    cases r with
    | const b =>
      simp only [rename, simplifyBinary]
      split
      · rfl
      · exact hcombine
    | _ => exact hcombine
  | _ => exact hcombine

omit [Fingerprinted α] in
theorem simplifyRelation_rename (rel : Relation) (l r : Tree α) :
    simplifyRelation rel (l.rename σ) (r.rename σ) = (simplifyRelation rel l r).rename σ := by
  cases l with
  | const a =>
    cases r with
    | const b =>
      simp only [rename, simplifyRelation]
      split <;> rfl
    | _ => rfl
  | _ => rfl

omit [Fingerprinted α] in
theorem simplifyBranch_rename (c t f : Tree α) :
    simplifyBranch (c.rename σ) (t.rename σ) (f.rename σ) = (simplifyBranch c t f).rename σ := by
  cases c with
  | const a =>
    simp only [rename, simplifyBranch]
    split <;> rfl
  | _ => rfl

variable [Steady α]

theorem simplify_rename {t : Tree α} (ht : t.Over IsIdentifier) :
    (t.rename σ).simplify = t.simplify.rename σ := by
  induction t with
  | var x => rfl
  | const a => rfl
  | binary op l r hl hr =>
    rw [rename, simplify, simplify, hl ht.1, hr ht.2,
      simplifyBinary_rename (over_simplify ht.1) (over_simplify ht.2)]
  | unary op u hu =>
    rw [rename, simplify, simplify, hu ht, simplifyUnary_rename]
  | relate rel l r hl hr =>
    rw [rename, simplify, simplify, hl ht.1, hr ht.2, simplifyRelation_rename]
  | branch c t f hc htt hf =>
    rw [rename, simplify, simplify, hc ht.1, htt ht.2.1, hf ht.2.2, simplifyBranch_rename]

end

/-! ## Derivatives -/

theorem lowered_rename (t : Tree α) : lowered (t.rename σ) = (lowered t).rename σ := by
  cases t <;> rfl

theorem outerDerivative_rename (op : UnaryOp) (u : Tree α) :
    outerDerivative op (u.rename σ) = (outerDerivative op u).rename σ := by
  cases op <;> rfl

theorem binaryRule_rename {op : BinaryOp} {f g f' g' : Tree α} (hf : f.Over IsIdentifier)
    (hg : g.Over IsIdentifier) (hv : IsIdentifier v) :
    binaryRule (σ.name v) op (f.rename σ) (g.rename σ) (f'.rename σ) (g'.rename σ) =
      (binaryRule v op f g f' g').rename σ := by
  cases op with
  | pow =>
    simp only [binaryRule, powerRule, mentions_rename hf hv, mentions_rename hg hv, lowered_rename]
    split
    · rfl
    split <;> rfl
  | _ => rfl

theorem derivative_rename {t : Tree α} (ht : t.Over IsIdentifier) (hv : IsIdentifier v) :
    (t.rename σ).derivative (σ.name v) = (t.derivative v).rename σ := by
  induction t with
  | var x =>
    rw [rename, derivative, derivative, σ.name_beq ht hv]
    split <;> rfl
  | const a => rfl
  | binary op l r hl hr =>
    rw [rename, derivative, derivative, hl ht.1, hr ht.2, binaryRule_rename ht.1 ht.2 hv]
  | unary op u hu =>
    have hu := hu ht
    cases op with
    | neg => rw [rename, derivative, derivative, hu]; rfl
    | _ => simp only [rename, derivative, hu, outerDerivative_rename]
  | relate rel l r hl hr => rfl
  | branch c t f hc htt hf => rw [rename, derivative, derivative, htt ht.2.1, hf ht.2.2]; rfl

/-! ## Products -/

omit [Scalar α] in
theorem factors_rename (t : Tree α) : (t.rename σ).factors = t.factors.map (rename σ) := by
  fun_induction factors t with
  | case1 l r hl hr => rw [rename, factors, hl, hr, List.map_append]
  | case2 t h =>
    cases t with
    | binary op l r => cases op <;> first | rfl | exact absurd rfl (h l r)
    | _ => rfl

omit [Scalar α] in
theorem chain_rename (t : Tree α) (ts : List (Tree α)) :
    chain (t.rename σ) (ts.map (rename σ)) = (chain t ts).rename σ := by
  induction ts generalizing t with
  | nil => rfl
  | cons u us ih => exact ih (.binary .mul t u)

theorem stripSigns_rename (c : α) (t : Tree α) :
    stripSigns c (t.rename σ) = ((stripSigns c t).1, (stripSigns c t).2.rename σ) := by
  fun_induction stripSigns c t with
  | case1 c u ih => exact ih
  | case2 c t h =>
    cases t with
    | unary op u => cases op <;> first | rfl | exact absurd rfl (h u)
    | _ => rfl

theorem absorb_rename (acc : α × List (Tree α)) (part : Tree α) :
    absorb (acc.1, acc.2.map (rename σ)) (part.rename σ) =
      ((absorb acc part).1, (absorb acc part).2.map (rename σ)) := by
  unfold absorb
  rw [stripSigns_rename]
  generalize stripSigns acc.1 part = p
  obtain ⟨c, t⟩ := p
  cases t <;> simp [rename]

theorem foldl_absorb_rename (parts : List (Tree α)) (acc : α × List (Tree α)) :
    (parts.map (rename σ)).foldl absorb (acc.1, acc.2.map (rename σ)) =
      ((parts.foldl absorb acc).1, (parts.foldl absorb acc).2.map (rename σ)) := by
  induction parts generalizing acc with
  | nil => rfl
  | cons part parts ih => rw [List.map_cons, List.foldl_cons, absorb_rename, ih, List.foldl_cons]

theorem collect_rename (fs : List (Tree α)) :
    collect (fs.map (rename σ)) = ((collect fs).1, (collect fs).2.map (rename σ)) := by
  have hparts : (fs.map (rename σ)).flatMap factors = (fs.flatMap factors).map (rename σ) := by
    rw [List.flatMap_map, List.map_flatMap]
    exact congrArg (fun f => fs.flatMap f) (funext factors_rename)
  rw [collect, hparts]
  exact foldl_absorb_rename _ (Scalar.one, [])

theorem outcome_literal (a : α) : σ.outcome (rename σ) (literal a) = literal a := by
  unfold literal
  split <;> rfl

theorem lead_rename (c : α) (ts : List (Tree α)) :
    lead c (ts.map (rename σ)) = σ.outcome (rename σ) (lead c ts) := by
  cases ts with
  | nil => exact (outcome_literal c).symm
  | cons t ts =>
    simp only [List.map_cons, lead, chain_rename]
    split
    · exact (outcome_literal c).symm
    split
    · rfl
    split
    · rfl
    · unfold literal
      split <;> rfl

theorem regroup_rename (fs : List (Tree α)) :
    regroup (fs.map (rename σ)) = σ.outcome (rename σ) (regroup fs) := by
  rw [regroup, collect_rename]
  exact lead_rename _ _

end Tree

end Fluxion
