/-
Trees over given names: every variable has the property `P` and every
literal is finite. Whatever is made of such trees is such a tree again,
for any `P`; so names that are identifiers stay identifiers, no variable
appears that was not there, and no literal ceases to be finite.

Most literals are made by a check, but three are not: the zero, one and
two of the rules, an opposite, and an exponent lowered by one. `Steady`
says that these are finite; for simplification the zero, the one and the
opposite are enough (`Signed`).
-/
import Fluxion.Simplification
import Fluxion.Derivative
import Fluxion.Tree.Product
import Fluxion.Proofs.Exact
import Fluxion.Proofs.Fault

namespace Fluxion

/-- Steps that lead from finite numbers to finite numbers. -/
class Steady (α : Type) [Scalar α] : Prop where
  isFinite_zero : Scalar.isFinite (Scalar.zero : α) = true
  isFinite_one : Scalar.isFinite (Scalar.one : α) = true
  isFinite_two : Scalar.isFinite (Scalar.two : α) = true
  isFinite_neg {a : α} (h : Scalar.isFinite a = true) : Scalar.isFinite (Scalar.neg a) = true
  isFinite_add_one {a : α} (h : Scalar.isFinite a = true) :
    Scalar.isFinite (Scalar.add a Scalar.one) = true
  isFinite_sub_one {a : α} (h : Scalar.isFinite a = true) :
    Scalar.isFinite (Scalar.sub a Scalar.one) = true
  isFinite_one_sub {a : α} (h : Scalar.isFinite a = true) :
    Scalar.isFinite (Scalar.sub Scalar.one a) = true
  /-- A number equal to a finite one is finite. -/
  isFinite_of_eq {a b : α} (h : Scalar.eq a b = true) (hb : Scalar.isFinite b = true) :
    Scalar.isFinite a = true

/-- Opposites of finite numbers are finite, and so are zero and one. -/
class Signed (α : Type) [Scalar α] : Prop where
  isFinite_zero : Scalar.isFinite (Scalar.zero : α) = true
  isFinite_one : Scalar.isFinite (Scalar.one : α) = true
  isFinite_neg {a : α} (h : Scalar.isFinite a = true) : Scalar.isFinite (Scalar.neg a) = true

instance {α : Type} [Scalar α] [Steady α] : Signed α where
  isFinite_zero := Steady.isFinite_zero
  isFinite_one := Steady.isFinite_one
  isFinite_neg := Steady.isFinite_neg

/-- Exact numbers have no bounds to step over. -/
instance {α K : Type} [Field K] [LinearOrder K] [Elementary K] [Scalar α] [Exact α K] :
    Steady α where
  isFinite_zero := Exact.isFinite_of_reading Exact.reading_zero
  isFinite_one := Exact.isFinite_of_reading Exact.reading_one
  isFinite_two := Exact.isFinite_of_reading Exact.reading_two
  isFinite_neg h := by
    obtain ⟨x, hx⟩ := Exact.reading_of_isFinite h
    exact Exact.isFinite_of_reading (Exact.reading_neg hx)
  isFinite_add_one h := by
    obtain ⟨x, hx⟩ := Exact.reading_of_isFinite h
    exact Exact.isFinite_of_reading (Exact.reading_add hx Exact.reading_one)
  isFinite_sub_one h := by
    obtain ⟨x, hx⟩ := Exact.reading_of_isFinite h
    exact Exact.isFinite_of_reading (Exact.reading_sub hx Exact.reading_one)
  isFinite_one_sub h := by
    obtain ⟨x, hx⟩ := Exact.reading_of_isFinite h
    exact Exact.isFinite_of_reading (Exact.reading_sub Exact.reading_one hx)
  isFinite_of_eq := Exact.isFinite_of_eq

namespace Tree

variable {α : Type} [Scalar α] {P : String → Prop}

/-- All variables have the property and all literals are finite. -/
def Over (P : String → Prop) : Tree α → Prop
  | .var x => P x
  | .const a => Scalar.isFinite a = true
  | .binary _ l r | .relate _ l r => l.Over P ∧ r.Over P
  | .unary _ u => u.Over P
  | .branch c t f => c.Over P ∧ t.Over P ∧ f.Over P

theorem over_iff {t : Tree α} : t.Over P ↔ t.AllFinite ∧ ∀ x ∈ t.names, P x := by
  induction t with
  | var x => simp [Over, AllFinite, names]
  | const a => simp [Over, AllFinite, names]
  | binary op l r hl hr =>
    simp only [Over, AllFinite, names, List.mem_append, or_imp, forall_and, hl, hr]
    exact and_and_and_comm
  | unary op u hu => simp [Over, AllFinite, names, hu]
  | relate rel l r hl hr =>
    simp only [Over, AllFinite, names, List.mem_append, or_imp, forall_and, hl, hr]
    exact and_and_and_comm
  | branch c t f hc ht hf =>
    simp only [Over, AllFinite, names, List.mem_append, or_imp, forall_and, hc, ht, hf]
    constructor
    · rintro ⟨⟨hc, nc⟩, ⟨ht, nt⟩, hf, nf⟩
      exact ⟨⟨hc, ht, hf⟩, ⟨nc, nt⟩, nf⟩
    · rintro ⟨⟨hc, ht, hf⟩, ⟨nc, nt⟩, nf⟩
      exact ⟨⟨hc, nc⟩, ⟨ht, nt⟩, hf, nf⟩

theorem over_literal {a : α} {t : Tree α} (h : literal a = .ok t) : t.Over P := by
  obtain ⟨ha, rfl⟩ := literal_eq_ok.mp h
  exact ha

/-! ## Products -/

theorem over_factors {t : Tree α} (h : t.Over P) : ∀ u ∈ t.factors, u.Over P := by
  fun_induction factors t with
  | case1 l r hl hr =>
    intro u hu
    rcases List.mem_append.mp hu with hu | hu
    · exact hl h.1 u hu
    · exact hr h.2 u hu
  | case2 t _ =>
    intro u hu
    rw [List.mem_singleton.mp hu]; exact h

theorem over_chain {t : Tree α} {us : List (Tree α)} (ht : t.Over P) (h : ∀ u ∈ us, u.Over P) :
    (chain t us).Over P := by
  induction us generalizing t with
  | nil => exact ht
  | cons u us ih =>
    exact ih ⟨ht, h u (by simp)⟩ fun w hw => h w (by simp [hw])

theorem over_stripSigns {c : α} {t : Tree α} (h : t.Over P) : (stripSigns c t).2.Over P := by
  fun_induction stripSigns c t with
  | case1 c u ih => exact ih h
  | case2 c t _ => exact h

theorem over_absorb {acc : α × List (Tree α)} {part : Tree α} (hacc : ∀ u ∈ acc.2, u.Over P)
    (h : part.Over P) : ∀ u ∈ (absorb acc part).2, u.Over P := by
  have hs := over_stripSigns (c := acc.1) h
  unfold absorb
  split
  · exact hacc
  · next heq =>
    rw [heq] at hs
    intro u hu
    rcases List.mem_append.mp hu with hu | hu
    · exact hacc u hu
    · rw [List.mem_singleton.mp hu]; exact hs

theorem over_collect {fs : List (Tree α)} (h : ∀ u ∈ fs, u.Over P) :
    ∀ u ∈ (collect fs).2, u.Over P := by
  have parts : ∀ u ∈ fs.flatMap factors, u.Over P := by
    intro u hu
    obtain ⟨f, hf, hu⟩ := List.mem_flatMap.mp hu
    exact over_factors (h f hf) u hu
  have fold : ∀ (ps : List (Tree α)) (acc : α × List (Tree α)), (∀ u ∈ ps, u.Over P) →
      (∀ u ∈ acc.2, u.Over P) → ∀ u ∈ (ps.foldl absorb acc).2, u.Over P := by
    intro ps
    induction ps with
    | nil => exact fun acc _ hacc => hacc
    | cons p ps ih =>
      exact fun acc hps hacc => ih _ (fun u hu => hps u (by simp [hu]))
        (over_absorb hacc (hps p (by simp)))
  exact fold _ _ parts (by simp)

theorem over_lead {c : α} {ts : List (Tree α)} {t : Tree α} (hts : ∀ u ∈ ts, u.Over P)
    (h : lead c ts = .ok t) : t.Over P := by
  unfold lead at h
  split at h
  · exact over_literal h
  · next u us =>
    have hchain : (chain u us).Over P :=
      over_chain (hts u (by simp)) fun w hw => hts w (List.mem_cons_of_mem u hw)
    split at h
    · exact over_literal h
    split at h
    · cases h; exact hchain
    split at h
    · cases h; exact hchain
    · obtain ⟨k, hk, rfl⟩ := map_eq_ok.mp h
      exact ⟨over_literal hk, hchain⟩

theorem over_regroup {fs : List (Tree α)} {t : Tree α} (hfs : ∀ u ∈ fs, u.Over P)
    (h : regroup fs = .ok t) : t.Over P :=
  over_lead (over_collect hfs) h

/-! ## Simplification -/

section Simplification

theorem over_foldBinary {op : BinaryOp} {a b c : α} (h : foldBinary op a b = some c) :
    (Tree.const c).Over P := by
  simp only [foldBinary, Scalar.finite?, Option.ite_none_right_eq_some, Option.some.injEq] at h
  exact h.2 ▸ h.1

variable [Signed α]

theorem over_zero : (zero : Tree α).Over P := Signed.isFinite_zero

theorem over_one : (one : Tree α).Over P := Signed.isFinite_one

theorem over_negate {u : Tree α} (h : u.Over P) : (negate u).Over P := by
  unfold negate
  split
  · exact h
  · exact Signed.isFinite_neg h
  · exact h

omit [Signed α] in
theorem over_simplifyUnary_function {op : UnaryOp} {u : Tree α} (h : u.Over P) :
    (apply op u).Over P := by
  unfold apply
  split
  · dsimp only
    split
    · next hr => exact (Bool.and_eq_true_iff.mp hr).1
    · exact h
  · exact h

theorem over_simplifyUnary {op : UnaryOp} {u : Tree α} (h : u.Over P) :
    (simplifyUnary op u).Over P := by
  unfold simplifyUnary
  split
  · exact over_negate h
  · exact over_simplifyUnary_function h

theorem over_unfoldedProduct {a b : α} (ha : (Tree.const a).Over P) (hb : (Tree.const b).Over P) :
    (unfoldedProduct a b).Over P := by
  unfold unfoldedProduct
  split
  · exact over_zero
  split
  · exact ha
  split
  · exact hb
  split
  · exact over_negate ha
  · exact ⟨hb, ha⟩

theorem over_scale {c : α} {t : Tree α} (hc : (Tree.const c).Over P) (ht : t.Over P) :
    (scale c t).Over P := by
  fun_induction scale c t with
  | case1 c a r hr => exact over_foldBinary hr
  | case2 c a hr => exact over_unfoldedProduct hc ht
  | case3 c a f h => exact over_zero
  | case4 c a f _ h => exact ht
  | case5 c a f _ _ h => exact over_negate ht
  | case6 c a f _ _ _ r hr ih => exact ih (over_foldBinary hr) ht.2
  | case7 c a f _ _ _ hr => exact ⟨hc, ht⟩
  | case8 c t _ _ h => exact over_zero
  | case9 c t _ _ _ h => exact ht
  | case10 c t _ _ _ _ h => exact over_negate ht
  | case11 c t _ _ _ _ _ => exact ⟨hc, ht⟩

theorem over_combine {op : BinaryOp} {l r : Tree α} (hl : l.Over P) (hr : r.Over P) :
    (combine op l r).Over P := by
  cases op with
  | add =>
    simp only [combine, sum]
    split
    · exact hl
    split
    · exact hr
    · exact ⟨hl, hr⟩
  | sub =>
    simp only [combine, difference]
    split
    · exact hl
    split
    · exact over_negate hr
    split
    · exact over_zero
    · exact ⟨hl, hr⟩
  | mul =>
    simp only [combine, product]
    split
    · exact over_scale hl hr
    · exact over_scale hr hl
    · exact ⟨hl, hr⟩
  | div =>
    simp only [combine, quotient]
    split
    · exact hl
    split
    · exact over_zero
    split
    · exact over_one
    · exact ⟨hl, hr⟩
  | pow =>
    simp only [combine, power]
    split
    · exact over_one
    split
    · exact hl
    split
    · exact over_one
    · exact ⟨hl, hr⟩

theorem over_simplifyBinary {op : BinaryOp} {l r : Tree α} (hl : l.Over P) (hr : r.Over P) :
    (simplifyBinary op l r).Over P := by
  unfold simplifyBinary
  split
  · split
    · next hc => exact over_foldBinary hc
    · exact over_combine hl hr
  · exact over_combine hl hr

theorem over_simplifyRelation {rel : Relation} {l r : Tree α} (hl : l.Over P) (hr : r.Over P) :
    (simplifyRelation rel l r).Over P := by
  unfold simplifyRelation
  split
  · split
    · exact over_one
    · exact over_zero
  · exact ⟨hl, hr⟩

omit [Signed α] in
theorem over_simplifyBranch {c t f : Tree α} (hc : c.Over P) (ht : t.Over P) (hf : f.Over P) :
    (simplifyBranch c t f).Over P := by
  unfold simplifyBranch
  split
  · split
    · exact ht
    · exact hf
  · exact ⟨hc, ht, hf⟩

theorem over_simplify {t : Tree α} (h : t.Over P) : t.simplify.Over P := by
  induction t with
  | var x => exact h
  | const a => exact h
  | binary op l r hl hr => exact over_simplifyBinary (hl h.1) (hr h.2)
  | unary op u hu => exact over_simplifyUnary (hu h)
  | relate rel l r hl hr => exact over_simplifyRelation (hl h.1) (hr h.2)
  | branch c t f hc ht hf => exact over_simplifyBranch (hc h.1) (ht h.2.1) (hf h.2.2)

end Simplification

/-! ## Derivatives -/

section Derivative

variable [Steady α]

theorem over_two : (two : Tree α).Over P := Steady.isFinite_two

theorem over_outerDerivative {op : UnaryOp} {u : Tree α} (h : u.Over P) :
    (outerDerivative op u).Over P := by
  have h₁ : (one : Tree α).Over P := over_one
  have h₂ : (two : Tree α).Over P := over_two
  cases op <;> simp only [outerDerivative, squared, Over] <;> simp [h, h₁, h₂]

theorem over_lowered {g : Tree α} (h : g.Over P) : (lowered g).Over P := by
  unfold lowered
  split
  · exact Steady.isFinite_sub_one h
  · exact ⟨h, over_one⟩

theorem over_binaryRule {v : String} {op : BinaryOp} {f g f' g' : Tree α} (hf : f.Over P)
    (hg : g.Over P) (hf' : f'.Over P) (hg' : g'.Over P) : (binaryRule v op f g f' g').Over P := by
  cases op with
  | add => exact ⟨hf', hg'⟩
  | sub => exact ⟨hf', hg'⟩
  | mul => exact ⟨⟨hf', hg⟩, hf, hg'⟩
  | div => exact ⟨⟨⟨hf', hg⟩, hf, hg'⟩, hg, hg⟩
  | pow =>
    simp only [binaryRule, powerRule]
    split
    · exact ⟨⟨hg, hf, over_lowered hg⟩, hf'⟩
    split
    · exact ⟨⟨hf, hg⟩, hf, hg'⟩
    · exact ⟨⟨hf, hg⟩, ⟨hg', hf⟩, ⟨hg, hf'⟩, hf⟩

theorem over_derivative {v : String} {t : Tree α} (h : t.Over P) : (t.derivative v).Over P := by
  fun_induction derivative v t with
  | case1 a => exact over_zero
  | case2 x hx => exact over_one
  | case3 x hx => exact over_zero
  | case4 op f g hf hg => exact over_binaryRule h.1 h.2 (hf h.1) (hg h.2)
  | case5 u hu => exact hu h
  | case6 op u hop hu => exact ⟨over_outerDerivative h, hu h⟩
  | case7 c t f ht hf => exact ⟨h.1, ht h.2.1, hf h.2.2⟩
  | case8 rel l r => exact over_zero

end Derivative

end Tree

end Fluxion
