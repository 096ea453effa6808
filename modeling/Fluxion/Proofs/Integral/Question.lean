/-
What the strategies ask for. All of them ask for integrals of operands of
the integrand, with one exception: integration by parts, once it has the
integral of one factor, asks for the product of that integral and the
derivative of the other factor, which is no part of the integrand.

So variables, literals, powers, functions, comparisons and conditionals
are integrated without a question, and what a pipeline makes of them does
not depend on how many levels it has (`run_succ_eq_of_no_needs`).
-/
import Fluxion.Proofs.Integral.Selection

namespace Fluxion

variable {α : Type} [Scalar α]

namespace Plan

variable {sub : Tree α → Except (Fault α) (Tree α)} {u x : Tree α}

omit [Scalar α] in
theorem not_asks_ofExcept {r : Except (Fault α) (Option (Tree α))} :
    ¬(ofExcept r).Asks sub x := by
  rcases r with e | _ | t <;> intro h <;> cases h

omit [Scalar α] in
theorem asks_build {f : Tree α → Tree α} (h : (build u f).Asks sub x) : x = u := by
  cases h with
  | now => rfl
  | answered _ h => cases h
  | declined _ _ h => cases h

end Plan

namespace Strategy

/-- Integration by parts, with the power `u` and the function `dv`, comes to
ask for the integral of `x`. -/
structure Leaves (sub : Tree α → Except (Fault α) (Tree α)) (v : String) (u dv x : Tree α) :
    Prop where
  isPolynomialLike : u.isPolynomialLike v = true
  isIntegrableFactor : dv.isIntegrableFactor v = true
  regroup : ∃ w, sub dv = .ok w ∧ Tree.regroup [w, (u.derivative v).simplify] = .ok x

/-- The integral of `x` can be asked for when `t` is integrated and
sub-integrals are found by `sub`. -/
inductive Needs (sub : Tree α → Except (Fault α) (Tree α)) (v : String) :
    Tree α → Tree α → Prop
  | operand {u} : Needs sub v (.unary .neg u) u
  | left {op l r} (h : op ≠ .pow) : Needs sub v (.binary op l r) l
  | right {op l r} (h : op ≠ .pow) : Needs sub v (.binary op l r) r
  | rest {u dv x} (h : Leaves sub v u dv x) : Needs sub v (.binary .mul u dv) x
  | restReversed {u dv x} (h : Leaves sub v u dv x) : Needs sub v (.binary .mul dv u) x

variable {sub : Tree α → Except (Fault α) (Tree α)} {v : String} {t x : Tree α}

/-! ## The plans -/

theorem not_asks_ofPower {n : α} : ¬(ofPower v n).Asks sub x := by
  unfold ofPower
  split
  · intro h; cases h
  · exact Plan.not_asks_ofExcept

theorem not_asks_reciprocal {c d : Tree α} : ¬(reciprocal v c d).Asks sub x := by
  unfold reciprocal
  split
  · intro h; cases h
  split
  · split
    · split
      · intro h; cases h
      · split
        · intro h; cases h
        · exact Plan.not_asks_ofExcept
    · intro h; cases h
  · intro h; cases h

theorem needs_of_asks_powerRest (h : (powerRest v t).Asks sub x) : Needs sub v t x := by
  unfold powerRest at h
  split at h
  · cases h
  split at h
  · split at h
    · rw [Plan.asks_build h]; exact .right (by decide)
    split at h
    · rw [Plan.asks_build h]; exact .left (by decide)
    · cases h
  · split at h
    · exact absurd h not_asks_reciprocal
    · cases h
  · cases h

theorem needs_of_asks_powerRulePlan (h : (powerRulePlan v t).Asks sub x) : Needs sub v t x := by
  unfold powerRulePlan at h
  split at h
  · cases h
  split at h
  · split at h
    · split at h
      · exact absurd h not_asks_ofPower
      · exact needs_of_asks_powerRest h
    · exact needs_of_asks_powerRest h
  · exact needs_of_asks_powerRest h

theorem not_asks_basicTrigPlan : ¬(basicTrigPlan v t).Asks sub x := by
  unfold basicTrigPlan
  repeat' split
  all_goals intro h; cases h

theorem not_asks_exponentialPlan : ¬(exponentialPlan v t).Asks sub x := by
  unfold exponentialPlan
  repeat' split
  all_goals intro h; cases h

omit [Scalar α] in
theorem asks_constantMultiplePlan (h : (constantMultiplePlan v t).Asks sub x) :
    t = .unary .neg x ∨ (∃ r, t = .binary .mul x r) ∨ (∃ l, t = .binary .mul l x) ∨
      ∃ r, t = .binary .div x r := by
  unfold constantMultiplePlan at h
  split at h
  · rw [Plan.asks_build h]; exact .inl rfl
  · split at h
    · rw [Plan.asks_build h]; exact .inr (.inr (.inl ⟨_, rfl⟩))
    split at h
    · rw [Plan.asks_build h]; exact .inr (.inl ⟨_, rfl⟩)
    · cases h
  · split at h
    · rw [Plan.asks_build h]; exact .inr (.inr (.inr ⟨_, rfl⟩))
    · cases h
  · cases h

omit [Scalar α] in
theorem asks_termwise {op : BinaryOp} {l r : Tree α} (h : (termwise op l r).Asks sub x) :
    x = l ∨ x = r := by
  cases h with
  | now => exact .inl rfl
  | answered _ h => exact .inr (Plan.asks_build h)
  | declined _ _ h => cases h

theorem needs_of_asks_sumDifferencePlan (h : (sumDifferencePlan t).Asks sub x) :
    Needs sub v t x := by
  unfold sumDifferencePlan at h
  split at h
  · rcases asks_termwise h with rfl | rfl
    · exact .left (by decide)
    · exact .right (by decide)
  · rcases asks_termwise h with rfl | rfl
    · exact .left (by decide)
    · exact .right (by decide)
  · cases h

/-- One order of a product, or what is tried otherwise. -/
theorem needs_of_asks_partsPlan {u dv : Tree α} {otherwise : Plan α}
    (ht : t = .binary .mul u dv ∨ t = .binary .mul dv u)
    (h : (partsPlan v u dv otherwise).Asks sub x) : Needs sub v t x ∨ otherwise.Asks sub x := by
  unfold partsPlan at h
  split at h
  · next hcond =>
    obtain ⟨hu, hdv⟩ := Bool.and_eq_true_iff.mp hcond
    cases h with
    | now =>
      refine .inl ?_
      rcases ht with rfl | rfl
      · exact .right (by decide)
      · exact .left (by decide)
    | declined _ _ h => exact .inr h
    | answered hw h =>
      dsimp only at h
      split at h
      · cases h
      · next hrest =>
        cases h with
        | now =>
          have hleaves : Leaves sub v u dv x := ⟨hu, hdv, _, hw, hrest⟩
          refine .inl ?_
          rcases ht with rfl | rfl
          · exact .rest hleaves
          · exact .restReversed hleaves
        | answered _ h => cases h
        | declined _ _ h => exact .inr h
  · exact .inr h

theorem needs_of_asks_byPartsPlan (h : (byPartsPlan v t).Asks sub x) : Needs sub v t x := by
  unfold byPartsPlan at h
  split at h
  · rcases needs_of_asks_partsPlan (.inl rfl) h with h | h
    · exact h
    rcases needs_of_asks_partsPlan (.inr rfl) h with h | h
    · exact h
    · cases h
  · cases h

variable [Numeral α]

/-- **What is asked for** is an operand, or the product that integration by
parts is left with. -/
theorem needs_of_asks {s : Strategy α} (h : (s.plan v t).Asks sub x) : Needs sub v t x := by
  cases s with
  | powerRule => exact needs_of_asks_powerRulePlan h
  | basicTrig => exact absurd h not_asks_basicTrigPlan
  | exponential => exact absurd h not_asks_exponentialPlan
  | constantMultiple =>
    rcases asks_constantMultiplePlan h with rfl | ⟨r, rfl⟩ | ⟨l, rfl⟩ | ⟨r, rfl⟩
    · exact .operand
    · exact .left (by decide)
    · exact .right (by decide)
    · exact .left (by decide)
  | substitution m => exact absurd h Plan.not_asks_ofExcept
  | byParts => exact needs_of_asks_byPartsPlan h
  | sumDifference => exact needs_of_asks_sumDifferencePlan h

/-! ## Integrands without a question -/

omit [Numeral α] in
/-- A function is integrated as a whole. -/
theorem not_needs_function {op : UnaryOp} (hop : op ≠ .neg) {u : Tree α} :
    ¬Needs sub v (.unary op u) x := by
  intro h
  cases h
  exact hop rfl

omit [Scalar α] [Numeral α] in
theorem eq_unary_of_isIntegrableFactor {dv : Tree α} (h : dv.isIntegrableFactor v = true) :
    ∃ op u, dv = .unary op u ∧ op ≠ .neg ∧ u.mentions v = true := by
  unfold Tree.isIntegrableFactor at h
  split at h
  · next op u =>
    rw [Bool.and_eq_true] at h
    refine ⟨op, u, rfl, ?_, h.2⟩
    rintro rfl
    exact absurd h.1 (by decide)
  · cases h

end Strategy

namespace Pipeline

variable [Numeral α] {p q : Pipeline α} {v : String} {t : Tree α}

/-- An integrand that asks for nothing is integrated alike with any number
of levels. -/
theorem run_succ_eq_of_no_needs (hpq : p.strategies = q.strategies)
    (h : ∀ sub x, ¬Strategy.Needs sub v t x) (m n : Nat) :
    p.run v (m + 1) t = q.run v (n + 1) t := by
  have hclaim : claim (p.run v m) v t p.strategies = claim (q.run v n) v t p.strategies :=
    claim_congr fun _ _ _ _ _ _ hask => absurd (Strategy.needs_of_asks hask) (h _ _)
  rw [run, run, hclaim, hpq]

/-- What is found for a function is found with any number of levels. -/
theorem run_function_of_le (hpq : p.strategies = q.strategies) {op : UnaryOp} (hop : op ≠ .neg)
    {u w : Tree α} {m n : Nat} (hmn : m ≤ n) (h : p.run v m (.unary op u) = .ok w) :
    q.run v n (.unary op u) = .ok w := by
  cases m with
  | zero => cases h
  | succ m =>
    cases n with
    | zero => omega
    | succ n =>
      rw [← h]
      exact run_succ_eq_of_no_needs hpq.symm (fun _ _ => Strategy.not_needs_function hop) n m

end Pipeline

end Fluxion
