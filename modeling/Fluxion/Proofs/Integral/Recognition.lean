/-
What the strategies recognise in a tree is there after renaming as before:
the patterns, known constants, and the ratio of two trees found by
comparing their texts. Texts agree exactly when the collapsed spelled trees
do, and these are renamed like the trees; so it does not matter that names
and their lengths change, nor that a name may be that of a function.
-/
import Fluxion.Integral.Matching
import Fluxion.Proofs.Integral.Matching
import Fluxion.Proofs.Tree.Renaming

namespace Fluxion

open Text

namespace Tree

variable {α : Type} [Scalar α] {σ : Renaming} {v : String}

/-! ## Patterns -/

theorem isVariable_rename {t : Tree α} (ht : t.Over IsIdentifier) (hv : IsIdentifier v) :
    (t.rename σ).isVariable (σ.name v) = t.isVariable v := by
  cases t with
  | var x => exact σ.name_beq ht hv
  | _ => rfl

theorem isPowerOf_rename {t : Tree α} (ht : t.Over IsIdentifier) (hv : IsIdentifier v) :
    (t.rename σ).isPowerOf (σ.name v) = t.isPowerOf v := by
  cases t with
  | binary op l r =>
    cases op with
    | pow => simp only [rename, isPowerOf, isVariable_rename ht.1 hv, mentions_rename ht.2 hv]
    | _ => rfl
  | _ => rfl

theorem isFunctionOf_rename {op : UnaryOp} {t : Tree α} (ht : t.Over IsIdentifier)
    (hv : IsIdentifier v) : (t.rename σ).isFunctionOf op (σ.name v) = t.isFunctionOf op v := by
  cases t with
  | unary o u => simp only [rename, isFunctionOf, isVariable_rename (t := u) ht hv]
  | _ => rfl

theorem isIntegrableFactor_rename {t : Tree α} (ht : t.Over IsIdentifier) (hv : IsIdentifier v) :
    (t.rename σ).isIntegrableFactor (σ.name v) = t.isIntegrableFactor v := by
  cases t with
  | unary o u => simp only [rename, isIntegrableFactor, mentions_rename (t := u) ht hv]
  | _ => rfl

theorem isSquaredFunctionOf_rename [Fingerprinted α] [Steady α] {op : UnaryOp} {t : Tree α}
    (ht : t.Over IsIdentifier) (hv : IsIdentifier v) :
    (t.rename σ).isSquaredFunctionOf op (σ.name v) = t.isSquaredFunctionOf op v := by
  cases t with
  | binary o l r =>
    cases o with
    | pow =>
      have htwo : (r.rename σ).eq two = r.eq two := eq_rename ht.2 over_two
      simp only [rename, isSquaredFunctionOf, isFunctionOf_rename ht.1 hv, htwo]
    | _ => rfl
  | _ => rfl

theorem isPolynomialLike_rename {t : Tree α} (ht : t.Over IsIdentifier) (hv : IsIdentifier v) :
    (t.rename σ).isPolynomialLike (σ.name v) = t.isPolynomialLike v := by
  cases t with
  | var x => exact σ.name_beq ht hv
  | binary op l r =>
    cases op with
    | pow =>
      cases r with
      | const a => simp only [rename, isPolynomialLike, isVariable_rename ht.1 hv]
      | _ => rfl
    | _ => rfl
  | _ => rfl

/-- Without bindings a value is found by renaming only names in faults. -/
theorem value_nil_rename (t : Tree α) :
    (t.rename σ).value [] = σ.outcome id (t.value []) := by
  induction t with
  | var x => rfl
  | const a => rfl
  | binary op l r hl hr =>
    rw [rename, value, value, hl, hr]
    cases l.value [] with
    | error e => rfl
    | ok a => cases r.value [] <;> rfl
  | unary op u hu =>
    rw [rename, value, value, hu]
    cases u.value [] <;> rfl
  | relate rel l r hl hr =>
    rw [rename, value, value, hl, hr]
    cases l.value [] with
    | error e => rfl
    | ok a => cases r.value [] <;> rfl
  | branch c t f hc ht hf =>
    rw [rename, value, value, hc, ht, hf]
    cases c.value [] with
    | error e => rfl
    | ok a =>
      simp only [Renaming.outcome, bind, Except.bind, id]
      split <;> rfl

/-- Any tree but a literal is known by its value without bindings. -/
theorem constantValue?_eq {t : Tree α} (h : t.kind ≠ .constant) :
    t.constantValue? = (t.evaluate []).toOption := by
  unfold constantValue?
  split
  · exact absurd rfl h
  · split <;> next hr => rw [hr]; rfl

theorem constantValue?_rename (t : Tree α) : (t.rename σ).constantValue? = t.constantValue? := by
  have hevaluate : (t.rename σ).evaluate [] = σ.outcome id (t.evaluate []) := by
    rw [evaluate, evaluate, value_nil_rename]
    cases t.value [] with
    | error e => rfl
    | ok a =>
      simp only [Renaming.outcome, bind, Except.bind, id]
      split <;> rfl
  have other (h : (t.rename σ).kind ≠ .constant) (h' : t.kind ≠ .constant) :
      (t.rename σ).constantValue? = t.constantValue? := by
    rw [constantValue?_eq h, constantValue?_eq h', hevaluate]
    cases t.evaluate [] <;> rfl
  cases t with
  | const a => rfl
  | _ => exact other (by simp [rename, kind]) (by simp [kind])

/-! ## Texts -/

/-- Legible trees that are renamed alike are the same. -/
theorem rename_inj {a b : Tree String} (ha : a.Legible) (hb : b.Legible)
    (h : a.rename σ = b.rename σ) : a = b := by
  induction a generalizing b with
  | var x =>
    cases b <;> simp only [rename, reduceCtorEq, var.injEq] at h
    rw [σ.injective ha hb h]
  | const s => cases b <;> simp only [rename, reduceCtorEq] at h; exact h
  | binary op l r hl hr =>
    cases b <;> simp only [rename, reduceCtorEq, binary.injEq] at h
    rw [h.1, hl ha.1 hb.1 h.2.1, hr ha.2.1 hb.2.1 h.2.2]
  | unary op u hu =>
    cases b <;> simp only [rename, reduceCtorEq, unary.injEq] at h
    next op' u' => rw [h.1, hu (b := u') ha hb h.2]
  | relate rel l r hl hr =>
    cases b <;> simp only [rename, reduceCtorEq, relate.injEq] at h
    rw [h.1, hl ha.1 hb.1 h.2.1, hr ha.2.1 hb.2.1 h.2.2]
  | branch c t f hc ht hf =>
    cases b <;> simp only [rename, reduceCtorEq, branch.injEq] at h
    rw [hc ha.1 hb.1 h.1, ht ha.2.1 hb.2.1 h.2.1, hf ha.2.2 hb.2.2 h.2.2]

theorem isFirstPower_rename {op : BinaryOp} {l r : Tree String} (hl : l.Legible)
    (hv : IsIdentifier v) :
    isFirstPower (σ.name v) op (l.rename σ) (r.rename σ) = isFirstPower v op l r := by
  cases op with
  | pow =>
    cases l with
    | var x => cases r <;> simp only [rename, isFirstPower, σ.name_beq (x := x) hl hv]
    | _ => rfl
  | _ => rfl

theorem collapse_rename {t : Tree String} (ht : t.Legible) (hv : IsIdentifier v) :
    (t.rename σ).collapse (σ.name v) = (t.collapse v).rename σ := by
  induction t with
  | var x => rfl
  | const s => rfl
  | binary op l r hl hr =>
    rw [rename, collapse, collapse, isFirstPower_rename ht.1 hv, hl ht.1, hr ht.2.1]
    split <;> rfl
  | unary op u hu => rw [rename, collapse, collapse, hu ht]; rfl
  | relate rel l r hl hr => rw [rename, collapse, collapse, hl ht.1, hr ht.2.1]; rfl
  | branch c t f hc htt hf =>
    rw [rename, collapse, collapse, hc ht.1, htt ht.2.1, hf ht.2.2]; rfl

variable [Numeral α]

theorem spellOperand_rename (t : Tree α) (s : Tree String) :
    spellOperand (t.rename σ) (s.rename σ) = (spellOperand t s).rename σ := by
  cases t with
  | const a =>
    simp only [rename, spellOperand]
    split <;> rfl
  | _ => rfl

theorem spell_rename (t : Tree α) : (t.rename σ).spell = t.spell.rename σ := by
  induction t with
  | var x => rfl
  | const a => rfl
  | binary op l r hl hr =>
    rw [rename, spell, spell, hl, hr, spellOperand_rename, spellOperand_rename]; rfl
  | unary op u hu => rw [rename, spell, spell, hu]; rfl
  | relate rel l r hl hr =>
    rw [rename, spell, spell, hl, hr, spellOperand_rename, spellOperand_rename]; rfl
  | branch c t f hc ht hf => rw [rename, spell, spell, hc, ht, hf]; rfl

variable [Spelled α]

/-- Texts agree exactly when the collapsed spelled trees do. -/
theorem compact_eq_iff (hv : IsIdentifier v) {a b : Tree α} (ha : a.Over IsIdentifier)
    (hb : b.Over IsIdentifier) :
    a.compact v = b.compact v ↔ a.spell.collapse v = b.spell.collapse v := by
  refine ⟨collapse_eq_of_compact hv ha hb, fun h => ?_⟩
  rw [compact_eq hv ha, compact_eq hv hb, h]

/-- **Texts agree after renaming** exactly when they did before. -/
theorem compact_beq_rename (hv : IsIdentifier v) {a b : Tree α} (ha : a.Over IsIdentifier)
    (hb : b.Over IsIdentifier) :
    ((a.rename σ).compact (σ.name v) == (b.rename σ).compact (σ.name v)) =
      (a.compact v == b.compact v) := by
  rw [Bool.eq_iff_iff, beq_iff_eq, beq_iff_eq,
    compact_eq_iff (σ.isIdentifier hv) (over_rename ha) (over_rename hb), compact_eq_iff hv ha hb,
    spell_rename, spell_rename, collapse_rename (legible_spell ha) hv,
    collapse_rename (legible_spell hb) hv]
  exact ⟨rename_inj (legible_collapse hv (legible_spell ha))
      (legible_collapse hv (legible_spell hb)),
    congrArg (rename σ)⟩

end Tree

/-! ## Ratios -/

namespace Matching

variable {α : Type} [Scalar α] {σ : Renaming} {v : String}

theorem peel_rename (t : Tree α) :
    (t.rename σ).peel = (t.peel.1, t.peel.2.map (Tree.rename σ)) := by
  induction t with
  | unary op u hu =>
    cases op with
    | neg => rw [Tree.rename, Tree.peel, Tree.peel, hu]
    | _ => rfl
  | binary op l r hl hr =>
    cases op with
    | mul => cases l <;> cases r <;> rfl
    | _ => rfl
  | _ => rfl

variable [Numeral α] [Spelled α]

theorem sameRemainder_rename (hv : IsIdentifier v) {a b : Option (Tree α)}
    (ha : ∀ t, a = some t → t.Over IsIdentifier) (hb : ∀ t, b = some t → t.Over IsIdentifier) :
    sameRemainder (σ.name v) (a.map (Tree.rename σ)) (b.map (Tree.rename σ)) =
      sameRemainder v a b := by
  cases a with
  | none => cases b <;> rfl
  | some a =>
    cases b with
    | none => rfl
    | some b => exact Tree.compact_beq_rename hv (ha a rfl) (hb b rfl)

variable [Fingerprinted α] [Steady α]

/-- **Ratios are found alike** before and after renaming, as long as
nothing is sampled. -/
theorem ratio?_rename {m : Matching α} (hm : m.sampled = false) {candidate inner : Tree α}
    (hc : candidate.Over IsIdentifier) (hi : inner.Over IsIdentifier) (hv : IsIdentifier v) :
    m.ratio? (candidate.rename σ) (inner.rename σ) (σ.name v) = m.ratio? candidate inner v := by
  have hoc := Tree.over_simplify hc
  have hod := Tree.over_simplify (Tree.over_derivative (v := v) hi)
  have hremainder := sameRemainder_rename (σ := σ) hv (a := candidate.simplify.peel.2)
    (b := (inner.derivative v).simplify.peel.2) (fun _ ht => Tree.over_peel hoc ht)
    (fun _ ht => Tree.over_peel hod ht)
  simp only [ratio?, hm, Tree.simplify_rename hc, Tree.derivative_rename hi hv,
    Tree.simplify_rename (Tree.over_derivative hi), Tree.compact_beq_rename hv hoc hod, peel_rename,
    hremainder, Bool.false_eq_true, if_false]

end Matching

end Fluxion
