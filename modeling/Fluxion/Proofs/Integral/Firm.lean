/-
Faults of a strategy's own. A sub-integral may decline, and a plan answers
that by going on without it; but no plan itself ends in a fault that would
be taken for "does not apply". So a run that refuses its integrand does so
because every strategy declined.
-/
import Fluxion.Proofs.Integral.Fault

namespace Fluxion

variable {α : Type}

/-! ## Plans -/

namespace Plan

variable {sub : Tree α → Except (Fault α) (Tree α)} {plan : Plan α} {e : Fault α}

/-- The faults of the plan itself, whatever is answered, are none by which a
sub-integral would decline. -/
def Firm : Plan α → Prop
  | .decline => True
  | .done _ => True
  | .fail e => e.declines = false
  | .ask _ next => ∀ x, (next x).Firm

theorem Firm.declines_eq_false (h : plan.Firm) (he : plan.run sub = .error e) :
    e.declines = false := by
  induction plan with
  | decline => cases he
  | done t => cases he
  | fail d => cases he; exact h
  | ask u next ih =>
    rcases ask_eq_error he with ⟨-, hdec⟩ | ⟨w, -, he⟩ | ⟨d, -, -, he⟩
    · exact hdec
    · exact ih (some w) (h (some w)) he
    · exact ih none (h none) he

theorem firm_ofExcept {x : Except (Fault α) (Option (Tree α))}
    (h : ∀ e, x = .error e → e.declines = false) : (ofExcept x).Firm := by
  rcases x with e | _ | t
  · exact h e rfl
  · trivial
  · trivial

theorem firm_build (u : Tree α) (f : Tree α → Tree α) : (build u f).Firm
  | none => trivial
  | some _ => trivial

end Plan

/-! ## The faults of a strategy's own -/

namespace Strategy

variable [Scalar α] {v : String} {t : Tree α}

theorem declines_literal {a : α} {e : Fault α} (h : Tree.literal a = .error e) :
    e.declines = false := by
  rw [(Tree.literal_eq_error.mp h).2]
  rfl

theorem declines_regroup {fs : List (Tree α)} {e : Fault α} (h : Tree.regroup fs = .error e) :
    e.declines = false := by
  unfold Tree.regroup Tree.lead at h
  dsimp only at h
  split at h
  · exact declines_literal h
  split at h
  · exact declines_literal h
  split at h
  · cases h
  split at h
  · cases h
  · exact declines_literal (map_eq_error.mp h)

theorem declines_raisedPower {n : α} {e : Fault α} (h : raisedPower v n = .error e) :
    e.declines = false :=
  declines_literal (map_eq_error.mp h)

theorem firm_powerRest : (powerRest v t).Firm := by
  unfold powerRest reciprocal
  split
  · trivial
  split
  · split
    · exact Plan.firm_build _ _
    split
    · exact Plan.firm_build _ _
    · trivial
  · split
    · split
      · trivial
      split
      · split
        · split
          · trivial
          split
          · trivial
          · exact Plan.firm_ofExcept fun e he => declines_raisedPower (map_eq_error.mp he)
        · trivial
      · trivial
    · trivial
  · trivial

theorem firm_powerRulePlan : (powerRulePlan v t).Firm := by
  unfold powerRulePlan ofPower
  split
  · trivial
  split
  · split
    · split
      · split
        · trivial
        · exact Plan.firm_ofExcept fun e he => declines_raisedPower (map_eq_error.mp he)
      · exact firm_powerRest
    · exact firm_powerRest
  · exact firm_powerRest

theorem firm_basicTrigPlan : (basicTrigPlan v t).Firm := by
  unfold basicTrigPlan
  repeat' split
  all_goals trivial

theorem firm_exponentialPlan : (exponentialPlan v t).Firm := by
  unfold exponentialPlan
  repeat' split
  all_goals trivial

omit [Scalar α] in
theorem firm_constantMultiplePlan : (constantMultiplePlan v t).Firm := by
  unfold constantMultiplePlan
  repeat' split
  all_goals first | exact Plan.firm_build _ _ | trivial

theorem firm_partsPlan {u dv : Tree α} {otherwise : Plan α} (h : otherwise.Firm) :
    (partsPlan v u dv otherwise).Firm := by
  unfold partsPlan
  split
  · rintro (_ | w)
    · exact h
    · dsimp only
      split
      · next hrest => exact declines_regroup hrest
      · rintro (_ | s)
        · exact h
        · trivial
  · exact h

theorem firm_byPartsPlan : (byPartsPlan v t).Firm := by
  unfold byPartsPlan
  split
  · exact firm_partsPlan (firm_partsPlan (show Plan.decline.Firm from trivial))
  · trivial

omit [Scalar α] in
theorem firm_termwise (op : BinaryOp) (l r : Tree α) : (termwise op l r).Firm
  | none => trivial
  | some _ => Plan.firm_build _ _

omit [Scalar α] in
theorem firm_sumDifferencePlan : (sumDifferencePlan t).Firm := by
  unfold sumDifferencePlan
  split
  · exact firm_termwise _ _ _
  · exact firm_termwise _ _ _
  · trivial

variable [Numeral α]

theorem declines_substituteFactor {m : Matching α} {before fs : List (Tree α)} {e : Fault α}
    (h : substituteFactor m v before fs = .error e) : e.declines = false := by
  induction fs generalizing before with
  | nil => cases h
  | cons factor after ih =>
    unfold substituteFactor cofactor scaledBy at h
    split at h
    · split at h
      · split at h
        · split at h
          · next hc =>
            cases h
            split at hc
            · cases hc
            · exact declines_regroup hc
          · split at h
            · rw [map_eq_error] at h
              split at h
              · cases h
              · exact declines_literal (map_eq_error.mp h)
            · exact ih h
        · exact ih h
      · exact ih h
    · exact ih h

/-- No strategy fails by a fault that means "does not apply". -/
theorem firm_plan (s : Strategy α) : (s.plan v t).Firm := by
  cases s with
  | powerRule => exact firm_powerRulePlan
  | basicTrig => exact firm_basicTrigPlan
  | exponential => exact firm_exponentialPlan
  | constantMultiple => exact firm_constantMultiplePlan
  | substitution m => exact Plan.firm_ofExcept fun e he => declines_substituteFactor he
  | byParts => exact firm_byPartsPlan
  | sumDifference => exact firm_sumDifferencePlan

end Strategy

end Fluxion
