/-
Constant factors are moved out of an integral by two strategies, the power
rule and the constant multiple, and the power rule comes first. When a product
comes to the constant multiple, the power rule has asked for the integral
without the factor and had no answer; to ask again is of no use, as there is
one answer to each integral. So nothing changes if the constant multiple
leaves products alone (`integrate_sparing`).

To compare the two, a search is carried out with other plans in the place of
those of the strategies (`runBy`). Plans may be interchanged if they do the
same wherever the strategies before them decline (`Alike`).
-/
import Fluxion.Double.Arithmetic
import Fluxion.Proofs.Integral.Table

namespace Fluxion

variable {α : Type} [Scalar α]

namespace Strategy

section Products

variable {sub : Tree α → Except (Fault α) (Tree α)} {v : String} {l r : Tree α}

/-- Of a product with one constant factor, the two strategies make the same
plan. -/
theorem constantMultiplePlan_eq_powerRulePlan (h : l.mentions v ≠ r.mentions v) :
    constantMultiplePlan v (.binary .mul l r) = powerRulePlan v (.binary .mul l r) := by
  cases hl : l.mentions v <;> cases hr : r.mentions v
  · exact absurd (hl.trans hr.symm) h
  · simp [constantMultiplePlan, powerRulePlan_mul_left hl hr, hl, hr]
  · simp [constantMultiplePlan, powerRulePlan_mul_right hr hl, hl, hr]
  · exact absurd (hl.trans hr.symm) h

/-- A product that the power rule declines is declined. -/
theorem constantMultiplePlan_of_powerRulePlan
    (h : (powerRulePlan v (.binary .mul l r)).run sub = .ok none) :
    (constantMultiplePlan v (.binary .mul l r)).run sub = .ok none := by
  by_cases hlr : l.mentions v = r.mentions v
  · have hdecline : constantMultiplePlan v (.binary .mul l r) = .decline := by
      simp [constantMultiplePlan, hlr]
    rw [hdecline, Plan.run]
  · rw [constantMultiplePlan_eq_powerRulePlan hlr, h]

end Products

variable [Numeral α]

/-- What the strategy does, except that the constant multiple declines
products. -/
def sparing (s : Strategy α) (v : String) (t : Tree α) : Plan α :=
  match s, t with
  | .constantMultiple, .binary .mul _ _ => .decline
  | s, t => s.plan v t

theorem sparing_of_ne {s : Strategy α} (hs : s ≠ .constantMultiple) : s.sparing = s.plan := by
  funext v t
  cases s <;> first | rfl | exact absurd rfl hs

end Strategy

namespace Pipeline

variable [Numeral α]

/-! ## Searches with other plans -/

/-- `run`, with `plan` in the place of the plans of the strategies. -/
def runBy (plan : Strategy α → String → Tree α → Plan α) (p : Pipeline α) (v : String) :
    (levels : Nat) → Tree α → Except (Fault α) (Tree α)
  | 0, t => .error (.tooDeep p.limit t v)
  | n + 1, t =>
    match claimBy plan (runBy plan p v n) v t p.strategies with
    | .error e => .error e
    | .ok (some r) => .ok r.2
    | .ok none => .error (.unsupported t v)

/-- `integrate`, with `plan` in the place of the plans of the strategies. -/
def integrateBy (plan : Strategy α → String → Tree α → Plan α) (p : Pipeline α) (t : Tree α)
    (v : String) : Except (Fault α) (Tree α) :=
  runBy plan p v p.maxDepth t

variable {p : Pipeline α} {v : String} {n : Nat} {t : Tree α} {ss : List (Strategy α)}
  {f g : Strategy α → String → Tree α → Plan α}

theorem runBy_plan : runBy Strategy.plan p v n = p.run v n := by
  induction n with
  | zero => rfl
  | succ n ih =>
    funext t
    rw [runBy, ih, claimBy_plan]
    rfl

/-- Whatever is answered to them, `f` and `g` do the same at a strategy if
those before it decline. -/
def Alike (ss : List (Strategy α)) (f g : Strategy α → String → Tree α → Plan α) : Prop :=
  ∀ sub v t before s after, ss = before ++ s :: after →
    (∀ r ∈ before, (f r v t).run sub = .ok none) → (f s v t).run sub = (g s v t).run sub

omit [Scalar α] [Numeral α] in
/-- By induction on the levels left: the plans are alike whatever is answered,
and the same is answered. -/
theorem Alike.runBy_eq (h : Alike p.strategies f g) : runBy f p v n = runBy g p v n := by
  induction n with
  | zero => rfl
  | succ n ih =>
    funext t
    have hclaim : claimBy f (runBy g p v n) v t p.strategies =
        claimBy g (runBy g p v n) v t p.strategies := claimBy_congr (h _ v t)
    rw [runBy, runBy, ih, hclaim]

/-! ## Constant factors -/

/-- The constant multiple may leave products alone where a power rule stands
before it. -/
theorem alike_sparing
    (h : ∀ before after, ss = before ++ .constantMultiple :: after → .powerRule ∈ before) :
    Alike ss Strategy.sparing Strategy.plan := by
  intro sub v t before s after hss hbefore
  by_cases hs : s = .constantMultiple
  · subst hs
    have hpower : (Strategy.powerRulePlan v t).run sub = .ok none := hbefore _ (h before after hss)
    unfold Strategy.sparing
    split
    · next l r => exact (Strategy.constantMultiplePlan_of_powerRulePlan hpower).symm
    · rfl
  · rw [Strategy.sparing_of_ne hs]

omit [Numeral α] in
theorem powerRule_mem_of_standard {before after : List (Strategy α)}
    (h : Strategy.standard = before ++ .constantMultiple :: after) : .powerRule ∈ before := by
  cases before with
  | nil => cases h
  | cons s before =>
    obtain ⟨rfl, -⟩ := List.cons.inj h
    exact List.mem_cons_self

/-- **The constant multiple is of no use to products.** The standard
strategies find the same antiderivative or fail by the same fault when it
declines them, with any number of levels. -/
theorem integrate_sparing (maxDepth : Nat) (limit : String) (t : Tree α) (v : String) :
    integrateBy Strategy.sparing ⟨Strategy.standard, maxDepth, limit⟩ t v =
      integrate ⟨Strategy.standard, maxDepth, limit⟩ t v := by
  have halike : Alike (Strategy.standard : List (Strategy α)) Strategy.sparing Strategy.plan :=
    alike_sparing fun _ _ => powerRule_mem_of_standard
  have hrun : runBy Strategy.sparing ⟨Strategy.standard, maxDepth, limit⟩ v maxDepth =
      runBy Strategy.plan ⟨Strategy.standard, maxDepth, limit⟩ v maxDepth := halike.runBy_eq
  rw [integrateBy, integrate, hrun, runBy_plan]

/-- Without a power rule the product `2 * sin x` is lost. -/
example :
    (integrateBy Strategy.sparing ⟨[.constantMultiple, .basicTrig], 2, "2"⟩
        (.binary .mul (.const 2) (.unary .sin (.var "x")) : Tree Float) "x").isOk = false ∧
      (integrate ⟨[.constantMultiple, .basicTrig], 2, "2"⟩
        (.binary .mul (.const 2) (.unary .sin (.var "x")) : Tree Float) "x").isOk = true :=
  ⟨rfl, rfl⟩

end Pipeline

end Fluxion
