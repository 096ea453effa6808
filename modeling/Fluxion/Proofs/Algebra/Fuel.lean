/-
The fuel of the writer is a bound on the depth and nothing else. Where it
suffices the tree is the same for every larger amount
(`extends_toTreeBy`), so a form has at most one tree by given steps.
-/
import Fluxion.Algebra.Conversion
import Fluxion.Proofs.Fault

namespace Fluxion.Algebra

/-- The second result is that of the first, where the first has one. -/
def Extends {ε β : Type} (x y : Except ε β) : Prop := ∀ ⦃b⦄, x = .ok b → y = .ok b

namespace Extends

variable {ε β γ : Type}

theorem refl (x : Except ε β) : Extends x x := fun _ h => h

theorem bind {x y : Except ε β} {f g : β → Except ε γ} (hx : Extends x y)
    (hf : ∀ b, Extends (f b) (g b)) : Extends (x >>= f) (y >>= g) := by
  intro c h
  obtain ⟨b, hb, h⟩ := bind_eq_ok.mp h
  exact bind_eq_ok.mpr ⟨b, hx hb, hf b h⟩

theorem foldlM {f g : β → γ → Except ε β} (hf : ∀ b c, Extends (f b c) (g b c)) (cs : List γ)
    (b : β) : Extends (cs.foldlM f b) (cs.foldlM g b) := by
  induction cs generalizing b with
  | nil => exact .refl _
  | cons c cs ih => exact (hf b c).bind ih

end Extends

namespace Form

variable {α : Type} [Scalar α]

/-- With more fuel a form is written as the same tree. By induction on the
smaller amount, node by node. -/
theorem extends_toTreeBy (s : Steps α) {n m : Nat} (hle : n ≤ m) (u : Form) :
    Extends (u.toTreeBy s n) (u.toTreeBy s m) := by
  induction n generalizing m u with
  | zero => intro t h; cases h
  | succ n ih =>
    obtain ⟨m, rfl⟩ : ∃ k, m = k + 1 := ⟨m - 1, by omega⟩
    have below (v : Form) : Extends (v.toTreeBy s n) (v.toTreeBy s m) :=
      ih (Nat.le_of_succ_le_succ hle) v
    cases u with
    | symbol | number | constant | unsigned | imaginary | truth | foreign => exact .refl _
    | sum us =>
      cases us with
      | nil => exact .refl _
      | cons v us =>
        refine (below v).bind fun first => .foldlM (fun t w => ?_) us first
        refine .bind (.refl _) fun subtracted => ?_
        cases subtracted with
        | true => exact .bind (.refl _) fun w => (below w).bind fun _ => .refl _
        | false => exact (below w).bind fun _ => .refl _
    | product us =>
      simp only [toTreeBy]
      split
      · exact .bind (.refl _) fun w => (below w).bind fun _ => .refl _
      refine .bind (.refl _) fun f => ?_
      split
      · exact (below f.1).bind fun _ => (below f.2).bind fun _ => .refl _
      · cases us with
        | nil => exact .refl _
        | cons v us =>
          exact (below v).bind fun first =>
            .foldlM (fun t w => (below w).bind fun _ => .refl _) us first
    | power b e =>
      have plain : Extends
          (do return Tree.binary .pow (← b.toTreeBy s n) (← e.toTreeBy s n))
          (do return Tree.binary .pow (← b.toTreeBy s m) (← e.toTreeBy s m)) :=
        (below b).bind fun _ => (below e).bind fun _ => .refl _
      simp only [toTreeBy]
      split
      · exact (below b).bind fun _ => .refl _
      · split
        · split
          · exact .bind (.refl _) fun w => (below w).bind fun _ => .refl _
          · exact plain
        · exact plain
    | call op v => exact (below v).bind fun _ => .refl _
    | cases vs cs =>
      simp only [toTreeBy]
      split
      · split
        · refine (below _).bind fun last => .foldlM (fun t p => ?_) _ last
          exact (below p.2).bind fun _ => (below p.1).bind fun _ => .refl _
        · exact .refl _
      · exact .refl _
    | relate rel l r => exact (below l).bind fun _ => (below r).bind fun _ => .refl _

/-- So a form has at most one tree. -/
theorem toTreeBy_unique {s : Steps α} {u : Form} {n m : Nat} {t t' : Tree α}
    (h : u.toTreeBy s n = .ok t) (h' : u.toTreeBy s m = .ok t') : t = t' := by
  rcases Nat.le_total n m with hle | hle
  · exact Except.ok.inj ((extends_toTreeBy s hle u h).symm.trans h')
  · exact Except.ok.inj (h.symm.trans (extends_toTreeBy s hle u h'))

end Form

end Fluxion.Algebra
