/-
More levels never lose an antiderivative. With more levels a strategy that
stands earlier may succeed where it did not before, and then another
antiderivative is found or a literal overflows; but the integrand is not
refused (`not_refuses_of_le`).

A strategy that succeeded keeps its sub-integrals, though not the trees
they are. Only integration by parts looks at such a tree, that of its
function factor, and functions are integrated alike with any number of
levels.
-/
import Fluxion.Double.Arithmetic
import Fluxion.Proofs.Integral.Question

namespace Fluxion

variable {α : Type}

namespace Plan

/-- What `f` finds, `g` does not decline: it finds something, or fails. -/
def Keeps (f g : Tree α → Except (Fault α) (Tree α)) : Prop :=
  ∀ ⦃u w e⦄, f u = .ok w → g u = .error e → e.declines = false

/-- If the plan succeeds with the integrator `f`, it does not decline with
`g`. -/
def Persists (f g : Tree α → Except (Fault α) (Tree α)) (plan : Plan α) : Prop :=
  ∀ F, plan.run f = .ok (some F) → plan.run g ≠ .ok none

variable {f g : Tree α → Except (Fault α) (Tree α)} {F : Tree α}

theorem persists_decline : (decline : Plan α).Persists f g := fun _ h => by cases h

/-- Without questions the integrator makes no difference. -/
theorem persists_of_not_asks {plan : Plan α} (hno : ∀ x, ¬plan.Asks f x) :
    plan.Persists f g := by
  intro F h
  rw [← run_congr (g := g) fun x hx => absurd hx (hno x), h]
  exact nofun

theorem persists_done (t : Tree α) : (done t).Persists f g :=
  persists_of_not_asks fun _ h => by cases h

/-- A question that was answered is answered again, or fails. -/
theorem Keeps.ask_ne_none {u w : Tree α} {next : Option (Tree α) → Plan α} (hk : Keeps f g)
    (hw : f u = .ok w) (h : ∀ w', (next (some w')).run g ≠ .ok none) :
    (ask u next).run g ≠ .ok none := by
  rw [run]
  cases hg : g u with
  | ok w' => exact h w'
  | error e =>
    dsimp only
    rw [if_neg (by rw [hk hw hg]; exact Bool.false_ne_true)]
    exact fun hnone => by cases hnone

theorem Keeps.persists_build (hk : Keeps f g) (u : Tree α) (k : Tree α → Tree α) :
    (build u k).Persists f g := by
  intro F h
  obtain ⟨w, hw, -⟩ := run_build h
  exact hk.ask_ne_none hw fun w' h' => by cases h'

end Plan

variable [Scalar α]

/-! ## One strategy -/

namespace Strategy

open Plan (Keeps)

variable {f g : Tree α → Except (Fault α) (Tree α)} {v : String} {t : Tree α}

theorem persists_powerRest (hk : Keeps f g) : (powerRest v t).Persists f g := by
  unfold powerRest
  split
  · exact Plan.persists_done _
  split
  · split
    · exact hk.persists_build _ _
    split
    · exact hk.persists_build _ _
    · exact Plan.persists_decline
  · split
    · exact Plan.persists_of_not_asks fun _ => not_asks_reciprocal
    · exact Plan.persists_decline
  · exact Plan.persists_decline

theorem persists_powerRulePlan (hk : Keeps f g) : (powerRulePlan v t).Persists f g := by
  unfold powerRulePlan
  split
  · exact Plan.persists_done _
  split
  · split
    · split
      · exact Plan.persists_of_not_asks fun _ => not_asks_ofPower
      · exact persists_powerRest hk
    · exact persists_powerRest hk
  · exact persists_powerRest hk

omit [Scalar α] in
theorem persists_constantMultiplePlan (hk : Keeps f g) :
    (constantMultiplePlan v t).Persists f g := by
  unfold constantMultiplePlan
  split
  · exact hk.persists_build _ _
  · split
    · exact hk.persists_build _ _
    split
    · exact hk.persists_build _ _
    · exact Plan.persists_decline
  · split
    · exact hk.persists_build _ _
    · exact Plan.persists_decline
  · exact Plan.persists_decline

omit [Scalar α] in
theorem persists_termwise (hk : Keeps f g) (op : BinaryOp) (l r : Tree α) :
    (termwise op l r).Persists f g := by
  intro F h
  obtain ⟨a, b, ha, hb, -⟩ := run_termwise h
  exact hk.ask_ne_none ha fun _ => hk.ask_ne_none hb fun _ h => by cases h

omit [Scalar α] in
theorem persists_sumDifferencePlan (hk : Keeps f g) : (sumDifferencePlan t).Persists f g := by
  unfold sumDifferencePlan
  split
  · exact persists_termwise hk _ _ _
  · exact persists_termwise hk _ _ _
  · exact Plan.persists_decline

/-- Integration by parts comes to the same product again, since it finds
the same integral for the function factor. -/
theorem persists_partsPlan {u dv : Tree α} (hk : Keeps f g)
    (hdv : ∀ w, dv.isIntegrableFactor v = true → f dv = .ok w → g dv = .ok w) :
    (partsPlan v u dv .decline).Persists f g := by
  unfold partsPlan
  split
  · next hcond =>
    intro F h
    rcases Plan.run_ask h with ⟨w, hw, h⟩ | h
    · rw [Plan.run, hdv w (Bool.and_eq_true_iff.mp hcond).2 hw]
      dsimp only at h ⊢
      split at h
      · cases h
      · rcases Plan.run_ask h with ⟨s, hs, -⟩ | h
        · exact hk.ask_ne_none hs fun _ h => by cases h
        · cases h
    · cases h
  · exact Plan.persists_decline

theorem not_isPolynomialLike_of_isIntegrableFactor {dv : Tree α}
    (h : dv.isIntegrableFactor v = true) : dv.isPolynomialLike v = false := by
  obtain ⟨op, u, rfl, -⟩ := eq_unary_of_isIntegrableFactor h
  rfl

/-- Of the two orders of a product only one comes into question. -/
theorem byPartsPlan_mul (v : String) (l r : Tree α) :
    byPartsPlan v (.binary .mul l r) = partsPlan v l r .decline ∨
      byPartsPlan v (.binary .mul l r) = partsPlan v r l .decline := by
  have hplan : byPartsPlan v (.binary .mul l r) = partsPlan v l r (partsPlan v r l .decline) := rfl
  rw [hplan]
  by_cases hcond : (l.isPolynomialLike v && r.isIntegrableFactor v) = true
  · have hr : r.isPolynomialLike v = false :=
      not_isPolynomialLike_of_isIntegrableFactor (Bool.and_eq_true_iff.mp hcond).2
    have hdecline : partsPlan v r l .decline = (.decline : Plan α) := by
      rw [partsPlan, hr]; rfl
    rw [hdecline]
    exact .inl rfl
  · exact .inr (if_neg hcond)

theorem persists_byPartsPlan (hk : Keeps f g)
    (hfun : ∀ dv w, dv.isIntegrableFactor v = true → f dv = .ok w → g dv = .ok w) :
    (byPartsPlan v t).Persists f g := by
  cases t with
  | binary op l r =>
    cases op with
    | mul =>
      rcases byPartsPlan_mul v l r with hplan | hplan
      · rw [hplan]; exact persists_partsPlan hk (hfun r)
      · rw [hplan]; exact persists_partsPlan hk (hfun l)
    | _ => exact Plan.persists_decline
  | _ => exact Plan.persists_decline

variable [Numeral α]

/-- A strategy that succeeds does not decline with an integrator that keeps
what was found, and finds the same for functions. -/
theorem persists_plan (s : Strategy α) (hk : Keeps f g)
    (hfun : ∀ dv w, dv.isIntegrableFactor v = true → f dv = .ok w → g dv = .ok w) :
    (s.plan v t).Persists f g := by
  cases s with
  | powerRule => exact persists_powerRulePlan hk
  | basicTrig => exact Plan.persists_of_not_asks fun _ => not_asks_basicTrigPlan
  | exponential => exact Plan.persists_of_not_asks fun _ => not_asks_exponentialPlan
  | constantMultiple => exact persists_constantMultiplePlan hk
  | substitution m => exact Plan.persists_of_not_asks fun _ => Plan.not_asks_ofExcept
  | byParts => exact persists_byPartsPlan hk hfun
  | sumDifference => exact persists_sumDifferencePlan hk

end Strategy

/-! ## Whole runs -/

namespace Pipeline

variable [Numeral α] {p q : Pipeline α} {v : String} {t F : Tree α} {e : Fault α}

theorem claim_eq_none {sub : Tree α → Except (Fault α) (Tree α)} {ss : List (Strategy α)} :
    claim sub v t ss = .ok none ↔ ∀ s ∈ ss, (s.plan v t).run sub = .ok none := by
  induction ss with
  | nil => simp [claim]
  | cons s rest ih =>
    rw [claim, List.forall_mem_cons, ← ih]
    split
    · next h => simp [h]
    · next h => simp [h]
    · next h => simp [h]

/-- By induction on the levels of the successful run. The strategy that
succeeded either is reached again and keeps its sub-integrals, or an
earlier one ends the search. -/
theorem declines_eq_false_of_le (hpq : p.strategies = q.strategies) {m n : Nat} (hmn : m ≤ n)
    (h : p.run v m t = .ok F) (he : q.run v n t = .error e) : e.declines = false := by
  induction m generalizing n t F e with
  | zero => cases h
  | succ m ih =>
    obtain ⟨n, rfl⟩ : ∃ k, n = k + 1 := ⟨n - 1, by omega⟩
    have hmn : m ≤ n := by omega
    rw [run] at h
    split at h
    · cases h
    · next r hr =>
      obtain ⟨s, G⟩ := r
      obtain ⟨before, after, hss, -, hs⟩ := claim_eq_ok_some.mp hr
      rcases run_succ_eq_error.mp he with ⟨s', -, hs'⟩ | ⟨hnone, -⟩
      · exact (Strategy.firm_plan s').declines_eq_false hs'
      · have hdecline : (s.plan v t).run (q.run v n) = .ok none :=
          claim_eq_none.mp hnone s (by rw [← hpq, hss]; simp)
        refine absurd hdecline (s.persists_plan (f := p.run v m) (g := q.run v n) ?_ ?_ G hs)
        · intro u w e hw he
          exact ih hmn hw he
        · intro dv w hdv hw
          obtain ⟨op, u, rfl, hop, -⟩ := Strategy.eq_unary_of_isIntegrableFactor hdv
          exact run_function_of_le hpq hop hmn hw
    · cases h

/-- **More levels never lose an antiderivative.** If one is found, then
with the same strategies and more levels the integrand is not refused. -/
theorem not_refuses_of_le (hpq : p.strategies = q.strategies) (hd : p.maxDepth ≤ q.maxDepth)
    (h : p.integrate t v = .ok F) : ¬∃ e, q.integrate t v = .error e ∧ e.refuses = true := by
  rintro ⟨e, he, hrefuses⟩
  rw [Fault.refuses_eq_false (declines_eq_false_of_le hpq hd h he)] at hrefuses
  cases hrefuses

/-- `2 * (cos x * 3)`, in double precision. -/
def scaledCos : Tree Float :=
  .binary .mul (.const 2) (.binary .mul (.unary .cos (.var "x")) (.const 3))

/-- With one level `scaledCos` is integrated by substitution; with two the
power rule comes first and finds another antiderivative. -/
theorem not_refuses_scaledCos :
    ((standard : Pipeline Float).withLevels 1).integrate scaledCos "x" =
        .ok (.binary .mul (.const 6) (.unary .sin (.var "x"))) ∧
      ((standard : Pipeline Float).withLevels 2).integrate scaledCos "x" =
        .ok (.binary .mul (.const 2) (.binary .mul (.const 3) (.unary .sin (.var "x")))) ∧
      ¬∃ e, ((standard : Pipeline Float).withLevels 2).integrate scaledCos "x" = .error e ∧
        e.refuses = true := by
  have h : ((standard : Pipeline Float).withLevels 1).integrate scaledCos "x" =
      .ok (.binary .mul (.const 6) (.unary .sin (.var "x"))) := rfl
  exact ⟨h, rfl, not_refuses_of_le (p := standard.withLevels 1) (q := standard.withLevels 2) rfl
    (by decide) h⟩

end Pipeline

end Fluxion
