/-
What regrouping leaves of a product. The literals and the signs of the
factors go into the coefficient; the other factors stay, in their order
and without signs (`collect_snd`). The result is a literal or the product
of what stays, with a coefficient or a sign in front (`regroup_cases`).
-/
import Fluxion.Proofs.Tree.Over

namespace Fluxion.Tree

variable {α : Type}

/-- The tree without the signs in front. -/
def unsigned : Tree α → Tree α
  | .unary .neg u => unsigned u
  | t => t

/-- The factors that are no literals, without their signs. -/
def residues (fs : List (Tree α)) : List (Tree α) :=
  ((fs.flatMap factors).map unsigned).filter fun t => t.kind ≠ .constant

theorem residues_cons (f : Tree α) (fs : List (Tree α)) :
    residues (f :: fs) = residues [f] ++ residues fs := by
  simp [residues]

@[simp] theorem residues_nil : residues ([] : List (Tree α)) = [] := rfl

@[simp] theorem residues_const (a : α) : residues [Tree.const a] = [] := rfl

@[simp] theorem residues_mul (l r : Tree α) :
    residues [Tree.binary .mul l r] = residues [l] ++ residues [r] := by
  simp [residues, factors]

theorem unsigned_function {op : UnaryOp} (h : op ≠ .neg) (u : Tree α) :
    (Tree.unary op u).unsigned = .unary op u := by
  cases op <;> first | rfl | exact absurd rfl h

theorem residues_function {op : UnaryOp} (h : op ≠ .neg) (u : Tree α) :
    residues [Tree.unary op u] = [.unary op u] := by
  simp [residues, factors, unsigned_function h, kind]

/-- A sign in front of a single factor goes into the coefficient. -/
theorem residues_neg {t : Tree α} (h : t.factors = [t]) :
    residues [Tree.unary .neg t] = residues [t] := by
  simp [residues, h, factors, unsigned]

variable [Scalar α]

theorem stripSigns_snd (c : α) (t : Tree α) : (stripSigns c t).2 = t.unsigned := by
  fun_induction stripSigns c t with
  | case1 c u ih => exact ih
  | case2 c t h => rw [unsigned]; exact h

theorem absorb_snd (acc : α × List (Tree α)) (part : Tree α) :
    (absorb acc part).2 = acc.2 ++ [part.unsigned].filter fun t => t.kind ≠ .constant := by
  rw [← stripSigns_snd acc.1 part]
  unfold absorb
  split
  · next h => simp [h, kind]
  · next c t hconst h =>
    have hkind : t.kind ≠ .constant := by
      cases t with
      | const a => exact absurd rfl (hconst a)
      | _ => simp [kind]
    simp [h, hkind]

theorem foldl_absorb_snd (parts : List (Tree α)) (acc : α × List (Tree α)) :
    (parts.foldl absorb acc).2 =
      acc.2 ++ (parts.map unsigned).filter fun t => t.kind ≠ .constant := by
  induction parts generalizing acc with
  | nil => simp
  | cons part parts ih =>
    rw [List.foldl_cons, ih, absorb_snd, List.append_assoc, ← List.filter_append]
    rfl

theorem collect_snd (fs : List (Tree α)) : (collect fs).2 = residues fs := by
  rw [collect, foldl_absorb_snd]
  rfl

/-- A product of what stays, perhaps with a sign or a literal in front. -/
inductive Led (t : Tree α) : Tree α → Prop
  | plain : Led t t
  | signed : Led t (.unary .neg t)
  | scaled (c : α) : Led t (.binary .mul (.const c) t)

theorem lead_cases {c : α} {t x : Tree α} {ts : List (Tree α)} (h : lead c (t :: ts) = .ok x) :
    (∃ a, x = .const a) ∨ (chain t ts).Led x := by
  unfold lead at h
  dsimp only at h
  split at h
  · exact .inl ⟨c, (literal_eq_ok.mp h).2.symm⟩
  split at h
  · cases h; exact .inr .plain
  split at h
  · cases h; exact .inr .signed
  · obtain ⟨k, hk, rfl⟩ := map_eq_ok.mp h
    obtain ⟨-, rfl⟩ := literal_eq_ok.mp hk
    exact .inr (.scaled c)

/-- **What regrouping makes**, when some factor stays. -/
theorem regroup_cases {fs ts : List (Tree α)} {t x : Tree α} (hfs : residues fs = t :: ts)
    (h : regroup fs = .ok x) : (∃ a, x = .const a) ∨ (chain t ts).Led x := by
  rw [regroup, collect_snd, hfs] at h
  exact lead_cases h

end Fluxion.Tree
