/-
How far regrouping merges a product. The aim is one literal in front and
behind it factors that are neither literals nor negated (`Merged`). A product
is opened into its factors first and each factor loses its signs after that,
so what was a product under a sign stays closed: from `-(2 * x)` comes
`-(2 * x)` and not `-2 * x`.

`merged_regroup_iff` says when the aim is reached: when nothing is left that
hides a literal or a sign, when a coefficient of zero takes everything away,
and when the coefficient is one and a single product is left that happens to
be merged already.
-/
import Fluxion.Double.Arithmetic
import Fluxion.Proofs.Tree.Residue

namespace Fluxion.Tree

variable {α : Type} {l r t u : Tree α} {ts : List (Tree α)}

/-- No factor of the product is a literal or has a sign in front. -/
def Bare (t : Tree α) : Prop :=
  ∀ u ∈ t.factors, (∀ a, u ≠ .const a) ∧ ∀ w, u ≠ .unary .neg w

/-! ## Bare products -/

theorem bare_mul : (Tree.binary .mul l r).Bare ↔ l.Bare ∧ r.Bare :=
  List.forall_mem_append

theorem not_bare_const (a : α) : ¬(Tree.const a).Bare := fun h =>
  (h (.const a) (by simp [factors])).1 a rfl

theorem not_bare_neg (u : Tree α) : ¬(Tree.unary .neg u).Bare := fun h =>
  (h (.unary .neg u) (by simp [factors])).2 u rfl

theorem bare_chain (t : Tree α) (ts : List (Tree α)) :
    (chain t ts).Bare ↔ ∀ u ∈ t :: ts, u.Bare := by
  induction ts generalizing t with
  | nil => simp [chain]
  | cons u us ih => simp [chain, ih, bare_mul, and_assoc]

/-! ## Factors that stay -/

theorem ne_const_of_mem_residues {fs : List (Tree α)} (h : u ∈ residues fs) (a : α) :
    u ≠ .const a := by
  rintro rfl
  simpa [kind] using (List.mem_filter.mp h).2

/-- Several factors make a product that does not begin with a literal, if the
first of them is none. -/
theorem chain_cons (ht : ∀ a, t ≠ .const a) (u : Tree α) (us : List (Tree α)) :
    ∃ l r, chain t (u :: us) = .binary .mul l r ∧ ∀ a, l ≠ .const a := by
  induction us generalizing t u with
  | nil => exact ⟨t, u, rfl, ht⟩
  | cons w ws ih =>
    have hmul (a : α) : Tree.binary .mul t u ≠ .const a := by simp
    exact ih hmul w

/-! ## Merged products -/

variable [Scalar α]

/-- A literal that a product could do without: zero, one or minus one. -/
def IsIdle (c : α) : Prop :=
  Scalar.eq c Scalar.zero = true ∨ Scalar.eq c Scalar.one = true ∨
    Scalar.eq c (Scalar.neg Scalar.one) = true

/-- A literal, or a bare product that has nothing, a sign or one literal in
front. -/
inductive Merged : Tree α → Prop
  | literal (a : α) : Merged (.const a)
  | plain {t : Tree α} (h : t.Bare) : Merged t
  | signed {t : Tree α} (h : t.Bare) : Merged (.unary .neg t)
  | scaled {c : α} {t : Tree α} (h : t.Bare) (hc : ¬IsIdle c) : Merged (.binary .mul (.const c) t)

theorem merged_neg : (Tree.unary .neg t).Merged ↔ t.Bare := by
  constructor
  · intro h
    cases h with
    | plain h => exact absurd h (not_bare_neg t)
    | signed h => exact h
  · exact .signed

theorem merged_scaled {c : α} (hc : ¬IsIdle c) :
    (Tree.binary .mul (.const c) t).Merged ↔ t.Bare := by
  constructor
  · intro h
    cases h with
    | plain h => exact absurd (bare_mul.mp h).1 (not_bare_const c)
    | scaled h hc => exact h
  · exact fun h => .scaled h hc

/-- A product that does not begin with a literal has to be bare. -/
theorem merged_mul (hl : ∀ a, l ≠ .const a) :
    (Tree.binary .mul l r).Merged ↔ (Tree.binary .mul l r).Bare := by
  constructor
  · intro h
    cases h with
    | plain h => exact h
    | @scaled c t h hc => exact absurd rfl (hl c)
  · exact .plain

/-- The factors alone, without a coefficient. -/
theorem merged_chain (ht : ∀ a, t ≠ .const a) (ts : List (Tree α)) :
    (chain t ts).Merged ↔ (∀ u ∈ t :: ts, u.Bare) ∨ ts = [] ∧ t.Merged := by
  cases ts with
  | nil =>
    have hplain : t.Bare → t.Merged := .plain
    simpa [chain] using hplain
  | cons u us =>
    obtain ⟨l, r, hchain, hl⟩ := chain_cons ht u us
    rw [hchain, merged_mul hl, ← hchain, bare_chain]
    simp

/-- **How far regrouping merges.** A product whose coefficient is finite is
put together again. What comes out is a literal, or a product of factors
that are no literals and have no signs, with nothing, a sign or a literal
other than zero and plus or minus one in front; that is, if no factor that
stays hides a literal or a sign, or the coefficient is zero, or it is one and
the only factor that stays is of this form itself. Otherwise it is not. -/
theorem merged_regroup_iff (fs : List (Tree α)) (h : Scalar.isFinite (collect fs).1 = true) :
    ∃ x, regroup fs = .ok x ∧
      (x.Merged ↔ Scalar.eq (collect fs).1 Scalar.zero = true ∨ (∀ u ∈ residues fs, u.Bare) ∨
        Scalar.eq (collect fs).1 Scalar.one = true ∧ ∃ u, residues fs = [u] ∧ u.Merged) := by
  have hstay (u : Tree α) (hu : u ∈ residues fs) (a : α) : u ≠ .const a :=
    ne_const_of_mem_residues hu a
  rw [regroup, collect_snd]
  generalize (collect fs).1 = c at h
  generalize residues fs = rs at hstay
  have hliteral : (literal c : Except (Fault α) (Tree α)) = .ok (.const c) :=
    literal_eq_ok.mpr ⟨h, rfl⟩
  cases rs with
  | nil => exact ⟨.const c, hliteral, by simp [Merged.literal]⟩
  | cons t ts =>
    have hone : (∃ u, t :: ts = [u] ∧ u.Merged) ↔ ts = [] ∧ t.Merged := by
      constructor
      · rintro ⟨u, heq, hu⟩
        obtain ⟨rfl, rfl⟩ := List.cons.inj heq
        exact ⟨rfl, hu⟩
      · rintro ⟨rfl, ht⟩
        exact ⟨t, rfl, ht⟩
    rw [lead, hone]
    by_cases h₀ : Scalar.eq c Scalar.zero = true
    · exact ⟨.const c, by rw [if_pos h₀, hliteral], by simp [Merged.literal, h₀]⟩
    by_cases h₁ : Scalar.eq c Scalar.one = true
    · refine ⟨chain t ts, by rw [if_neg h₀, if_pos h₁], ?_⟩
      rw [merged_chain (hstay t List.mem_cons_self)]
      simp [h₀, h₁]
    by_cases h₂ : Scalar.eq c (Scalar.neg Scalar.one) = true
    · refine ⟨.unary .neg (chain t ts), by rw [if_neg h₀, if_neg h₁, if_pos h₂], ?_⟩
      rw [merged_neg, bare_chain]
      simp [h₀, h₁]
    · refine ⟨.binary .mul (.const c) (chain t ts), ?_, ?_⟩
      · rw [if_neg h₀, if_neg h₁, if_neg h₂, hliteral]
        rfl
      · rw [merged_scaled (by simp [IsIdle, h₀, h₁, h₂]), bare_chain]
        simp [h₀, h₁]

/-- `x`, `2`, `-exp x` and `3` are merged into `-6 * (x * exp x)`. -/
theorem merged_regroup_mixed :
    Scalar.isFinite (collect [.var "x", .const (2 : Float), .unary .neg (.unary .exp (.var "x")),
      .const 3]).1 = true ∧
    regroup [.var "x", .const (2 : Float), .unary .neg (.unary .exp (.var "x")), .const 3] =
      .ok (.binary .mul (.const (-6)) (.binary .mul (.var "x") (.unary .exp (.var "x")))) ∧
    (Tree.binary .mul (.const (-6 : Float))
      (.binary .mul (.var "x") (.unary .exp (.var "x")))).Merged := by
  have hfin : Scalar.isFinite (collect [.var "x", .const (2 : Float),
      .unary .neg (.unary .exp (.var "x")), .const 3]).1 = true := by decide +kernel
  have hregroup : regroup [.var "x", .const (2 : Float), .unary .neg (.unary .exp (.var "x")),
      .const 3] =
      .ok (.binary .mul (.const (-6)) (.binary .mul (.var "x") (.unary .exp (.var "x")))) := rfl
  have hstay : residues [.var "x", .const (2 : Float), .unary .neg (.unary .exp (.var "x")),
      .const 3] = [.var "x", .unary .exp (.var "x")] := rfl
  refine ⟨hfin, hregroup, ?_⟩
  obtain ⟨x, hx, hiff⟩ := merged_regroup_iff _ hfin
  cases hregroup.symm.trans hx
  refine hiff.mpr (.inr (.inl ?_))
  rw [hstay]
  simp [Bare, factors]

/-- `-(2 * x)`. -/
def negatedDouble : Tree Float := .unary .neg (.binary .mul (.const 2) (.var "x"))

/-- The literal under the sign stays where it is. -/
theorem regroup_not_merged :
    Scalar.isFinite (collect [negatedDouble]).1 = true ∧
      regroup [negatedDouble] = .ok negatedDouble ∧ ¬negatedDouble.Merged ∧
      ¬∀ (fs : List (Tree Float)) (x : Tree Float), Scalar.isFinite (collect fs).1 = true →
        regroup fs = .ok x → x.Merged := by
  have hfin : Scalar.isFinite (collect [negatedDouble]).1 = true := by decide +kernel
  have hregroup : regroup [negatedDouble] = .ok negatedDouble := rfl
  have hnot : ¬negatedDouble.Merged := fun h =>
    not_bare_const (2 : Float) (bare_mul.mp (merged_neg.mp h)).1
  exact ⟨hfin, hregroup, hnot, fun h => hnot (h _ _ hfin hregroup)⟩

end Fluxion.Tree
