/-
Selecting against integrating. Both try the strategies in order, but a
selection is not an integration in progress, so that the sub-integrals of
its strategies have one level more. What it says is the truth about the
pipeline one level deeper; about the pipeline itself it is the truth when
the extra level makes no difference, as when the search never comes to the
limit (`select_tells`).

Runs are compared by what they ask: integrators that agree on the
integrals that are asked for carry a plan out alike (`Plan.run_congr`).
-/
import Fluxion.Proofs.Integral.Firm
import Fluxion.Proofs.Integral.Ledger
import Fluxion.Proofs.Integral.Overflow

namespace Fluxion

variable {α : Type}

/-- Integration refuses an integrand by this fault. -/
def Fault.refuses : Fault α → Bool
  | .unsupported _ _ | .tooDeep _ _ _ => true
  | _ => false

theorem Fault.refuses_eq_false {e : Fault α} (h : e.declines = false) : e.refuses = false := by
  cases e <;> first | rfl | cases h

theorem Plan.run_congr {f g : Tree α → Except (Fault α) (Tree α)} {plan : Plan α}
    (h : ∀ u, plan.Asks f u → f u = g u) : plan.run f = plan.run g := by
  induction plan with
  | decline => rfl
  | done t => rfl
  | fail e => rfl
  | ask u next ih =>
    rw [run, run, ← h u .now]
    cases hu : f u with
    | ok w => exact ih (some w) fun x hx => h x (.answered hu hx)
    | error d =>
      dsimp only
      split
      · next hdec => exact ih none fun x hx => h x (.declined hu hdec hx)
      · rfl

namespace Pipeline

variable [Scalar α] [Numeral α] {p : Pipeline α} {v : String} {n : Nat} {t F : Tree α}
  {s : Strategy α}

/-! ## What the strategies claim -/

/-- `claim`, with `plan` in the place of the plans of the strategies. -/
def claimBy (plan : Strategy α → String → Tree α → Plan α)
    (sub : Tree α → Except (Fault α) (Tree α)) (v : String) (t : Tree α) :
    List (Strategy α) → Except (Fault α) (Option (Strategy α × Tree α))
  | [] => .ok none
  | s :: rest =>
    match (plan s v t).run sub with
    | .error e => .error e
    | .ok (some r) => .ok (some (s, r))
    | .ok none => claimBy plan sub v t rest

theorem claimBy_plan (sub : Tree α → Except (Fault α) (Tree α)) (ss : List (Strategy α)) :
    claimBy Strategy.plan sub v t ss = claim sub v t ss := by
  induction ss with
  | nil => rfl
  | cons s rest ih => rw [claimBy, ih]; rfl

omit [Scalar α] [Numeral α] in
/-- Strategies are compared only where those before them decline. -/
theorem claimBy_congr {plan plan' : Strategy α → String → Tree α → Plan α}
    {f g : Tree α → Except (Fault α) (Tree α)} {ss : List (Strategy α)}
    (h : ∀ before s after, ss = before ++ s :: after →
      (∀ r ∈ before, (plan r v t).run f = .ok none) → (plan s v t).run f = (plan' s v t).run g) :
    claimBy plan f v t ss = claimBy plan' g v t ss := by
  induction ss with
  | nil => rfl
  | cons s rest ih =>
    have hs : (plan s v t).run f = (plan' s v t).run g := h [] s rest rfl (by simp)
    rw [claimBy, claimBy, ← hs]
    split
    · rfl
    · rfl
    · next hdec =>
      refine ih fun before r after hrest hbefore => ?_
      exact h (s :: before) r after (by rw [hrest]; rfl) (List.forall_mem_cons.mpr ⟨hdec, hbefore⟩)

theorem claim_congr {f g : Tree α → Except (Fault α) (Tree α)} {ss : List (Strategy α)}
    (h : ∀ before s after, ss = before ++ s :: after →
      (∀ r ∈ before, (r.plan v t).run f = .ok none) → ∀ u, (s.plan v t).Asks f u → f u = g u) :
    claim f v t ss = claim g v t ss := by
  rw [← claimBy_plan, ← claimBy_plan]
  exact claimBy_congr fun before s after hss hbefore =>
    Plan.run_congr (h before s after hss hbefore)

/-- The strategy `s` has the result `F`, and those before it decline. -/
def Wins (p : Pipeline α) (v : String) (n : Nat) (t : Tree α) (s : Strategy α) (F : Tree α) :
    Prop :=
  p.Reaches v n t s ∧ (s.plan v t).run (p.run v n) = .ok (some F)

theorem claim_eq_ok_some {sub : Tree α → Except (Fault α) (Tree α)} {ss : List (Strategy α)} :
    claim sub v t ss = .ok (some (s, F)) ↔ ∃ before after, ss = before ++ s :: after ∧
      (∀ r ∈ before, (r.plan v t).run sub = .ok none) ∧ (s.plan v t).run sub = .ok (some F) := by
  induction ss with
  | nil =>
    constructor
    · intro h; cases h
    · rintro ⟨before, after, h, -⟩; cases before <;> cases h
  | cons r rest ih =>
    constructor
    · intro h
      rw [claim] at h
      split at h
      · cases h
      · next hr => cases h; exact ⟨[], rest, rfl, by simp, hr⟩
      · next hr =>
        obtain ⟨before, after, rfl, hbefore, hs⟩ := ih.mp h
        exact ⟨r :: before, after, rfl, List.forall_mem_cons.mpr ⟨hr, hbefore⟩, hs⟩
    · rintro ⟨before, after, hss, hbefore, hs⟩
      rw [claim]
      cases before with
      | nil =>
        obtain ⟨rfl, rfl⟩ := List.cons.inj hss
        rw [hs]
      | cons b bs =>
        obtain ⟨rfl, rfl⟩ := List.cons.inj hss
        obtain ⟨hb, hbs⟩ := List.forall_mem_cons.mp hbefore
        rw [hb]
        exact ih.mpr ⟨bs, after, rfl, hbs, hs⟩

theorem wins_iff : p.Wins v n t s F ↔ claim (p.run v n) v t p.strategies = .ok (some (s, F)) := by
  rw [claim_eq_ok_some]
  constructor
  · rintro ⟨⟨before, after, hss, hbefore⟩, hs⟩
    exact ⟨before, after, hss, hbefore, hs⟩
  · rintro ⟨before, after, hss, hbefore, hs⟩
    exact ⟨⟨before, after, hss, hbefore⟩, hs⟩

theorem refuses_of_claim {sub : Tree α → Except (Fault α) (Tree α)} {ss : List (Strategy α)}
    {e : Fault α} (h : claim sub v t ss = .error e) : e.refuses = false := by
  obtain ⟨-, s, -, -, -, hs⟩ := claim_eq_error.mp h
  exact Fault.refuses_eq_false ((Strategy.firm_plan s).declines_eq_false hs)

/-! ## Levels -/

def withLevels (p : Pipeline α) (n : Nat) : Pipeline α := { p with maxDepth := n }

theorem run_withLevels (p : Pipeline α) (v : String) (m n : Nat) :
    (p.withLevels m).run v n = p.run v n := by
  induction n with
  | zero => rfl
  | succ n ih =>
    funext t
    rw [run, run, ih]
    rfl

/-- The search for an antiderivative comes to an integral for which no level
is left. -/
inductive Exhausts (p : Pipeline α) (v : String) : Nat → Tree α → Prop
  | here (t : Tree α) : Exhausts p v 0 t
  | nested {n : Nat} {t u : Tree α} {s : Strategy α} (hs : p.Reaches v n t s)
      (hask : (s.plan v t).Asks (p.run v n) u) (h : Exhausts p v n u) : Exhausts p v (n + 1) t

/-- A level more changes nothing for strategies that ask for integrals whose
search does not come to the limit. -/
theorem claim_succ (h : ∀ u, ¬p.Exhausts v n u → p.run v n u = p.run v (n + 1) u)
    (ht : ¬p.Exhausts v (n + 1) t) :
    claim (p.run v n) v t p.strategies = claim (p.run v (n + 1)) v t p.strategies :=
  claim_congr fun before _ after hss hbefore u hask =>
    h u fun hu => ht (.nested ⟨before, after, hss, hbefore⟩ hask hu)

theorem run_succ_of_not_exhausts (h : ¬p.Exhausts v n t) : p.run v n t = p.run v (n + 1) t := by
  induction n generalizing t with
  | zero => exact absurd (.here t) h
  | succ n ih =>
    rw [run, claim_succ (fun u => ih) h]
    rfl

/-! ## The truth about an integration -/

/-- An answer about which strategy claims `t` is the truth about its
integration: there is none exactly when the integrand is refused, it is the
strategy whose result is returned, and it is a fault when the integration
fails by it. -/
structure Tells (p : Pipeline α) (t : Tree α) (v : String)
    (answer : Except (Fault α) (Option (Strategy α))) : Prop where
  refusal : answer = .ok none ↔ ∃ e, p.integrate t v = .error e ∧ e.refuses = true
  winner : ∀ s, answer = .ok (some s) ↔
    ∃ F, p.integrate t v = .ok F ∧ p.Wins v (p.maxDepth - 1) t s F
  fault : ∀ e, answer = .error e ↔ p.integrate t v = .error e ∧ e.refuses = false

theorem Tells.unique {x y : Except (Fault α) (Option (Strategy α))} (hx : p.Tells t v x)
    (hy : p.Tells t v y) : x = y := by
  rcases hx' : x with e | _ | s
  · exact ((hy.fault e).mpr ((hx.fault e).mp hx')).symm
  · exact (hy.refusal.mpr (hx.refusal.mp hx')).symm
  · exact ((hy.winner s).mpr ((hx.winner s).mp hx')).symm

/-- A selection with one level less is the truth about an integration: the
sub-integrals of its strategies are those of the integration. -/
theorem tells_select_pred (hp : 0 < p.maxDepth) (t : Tree α) (v : String) :
    p.Tells t v ((p.withLevels (p.maxDepth - 1)).select t v) := by
  obtain ⟨n, hn⟩ : ∃ n, p.maxDepth = n + 1 := ⟨p.maxDepth - 1, by omega⟩
  have hselect : (p.withLevels (p.maxDepth - 1)).select t v =
      (claim (p.run v n) v t p.strategies).map fun r => r.map Prod.fst := by
    rw [select, run_withLevels, hn]
    rfl
  have hintegrate : p.integrate t v = p.run v (n + 1) t := by rw [integrate, hn]
  rw [run] at hintegrate
  have hwins (s : Strategy α) (F : Tree α) : p.Wins v (p.maxDepth - 1) t s F ↔
      claim (p.run v n) v t p.strategies = .ok (some (s, F)) := by
    rw [wins_iff, hn, Nat.add_sub_cancel]
  rw [hselect]
  have herror (e : Fault α) : claim (p.run v n) v t p.strategies = .error e → e.refuses = false :=
    refuses_of_claim
  generalize claim (p.run v n) v t p.strategies = r at hintegrate hwins herror
  rcases r with e | _ | ⟨s, F⟩
  · have he : e.refuses = false := herror e rfl
    exact ⟨by simp [Except.map, hintegrate, he], by simp [Except.map, hintegrate],
      by simp [Except.map, hintegrate, he]⟩
  · exact ⟨by simp [Except.map, hintegrate, Fault.refuses], by simp [Except.map, hintegrate],
      by simp [Except.map, hintegrate, Fault.refuses]⟩
  · exact ⟨by simp [Except.map, hintegrate], by simp [Except.map, hintegrate, hwins],
      by simp [Except.map, hintegrate]⟩

/-- **What a selection says.** It is the truth about integrating with one
level more. It is the truth about integrating with the levels there are
exactly when one level less would not change it, and it is when the search
does not come to the limit. -/
theorem select_tells (p : Pipeline α) (hp : 0 < p.maxDepth) (t : Tree α) (v : String) :
    (p.withLevels (p.maxDepth + 1)).Tells t v (p.select t v) ∧
      (p.Tells t v (p.select t v) ↔
        p.select t v = (p.withLevels (p.maxDepth - 1)).select t v) ∧
      (¬p.Exhausts v p.maxDepth t → p.Tells t v (p.select t v)) := by
  have hpred : p.Tells t v ((p.withLevels (p.maxDepth - 1)).select t v) :=
    p.tells_select_pred hp t v
  refine ⟨(p.withLevels (p.maxDepth + 1)).tells_select_pred (Nat.succ_pos _) t v, ?_, ?_⟩
  · constructor
    · intro h
      exact h.unique hpred
    · intro h
      rw [h]
      exact hpred
  · intro h
    obtain ⟨n, hn⟩ : ∃ n, p.maxDepth = n + 1 := ⟨p.maxDepth - 1, by omega⟩
    have hsame : p.select t v = (p.withLevels (p.maxDepth - 1)).select t v := by
      rw [hn] at h
      rw [select, select, run_withLevels, hn, ← claim_succ (fun u => run_succ_of_not_exhausts) h]
      rfl
    rw [hsame]
    exact hpred

/-- With the standard strategies `x` is claimed by the power rule, whose
antiderivative is returned. -/
theorem select_tells_var :
    0 < (standard : Pipeline Float).maxDepth ∧
      (standard : Pipeline Float).Tells (.var "x") "x" (.ok (some .powerRule)) := by
  have hp : 0 < (standard : Pipeline Float).maxDepth := by decide
  have hselect : (standard : Pipeline Float).select (.var "x") "x" = .ok (some .powerRule) := rfl
  have hpred : ((standard : Pipeline Float).withLevels 31).select (.var "x") "x" =
      .ok (some .powerRule) := rfl
  rw [← hselect]
  exact ⟨hp, (select_tells standard hp (.var "x") "x").2.1.mpr (hselect.trans hpred.symm)⟩

/-- With one level the terms of `x + x` have none left and the sum is
refused, yet the sum rule is selected. -/
theorem select_shallow_sum :
    0 < shallow.maxDepth ∧
      shallow.integrate (.binary .add (.var "x") (.var "x")) "x" =
        .error (.unsupported (.binary .add (.var "x") (.var "x")) "x") ∧
      ¬shallow.Tells (.binary .add (.var "x") (.var "x")) "x"
        (shallow.select (.binary .add (.var "x") (.var "x")) "x") := by
  refine ⟨by decide, rfl, fun h => ?_⟩
  have hnone : shallow.select (.binary .add (.var "x") (.var "x")) "x" = .ok none :=
    h.refusal.mpr ⟨_, rfl, rfl⟩
  cases hnone

end Pipeline

end Fluxion
