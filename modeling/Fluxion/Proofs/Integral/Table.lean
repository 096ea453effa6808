/-
What the standard strategies answer, as equations about runs. A table
integral needs one level; a linear step needs one level more than what it
asks for, and builds on whatever was found there.

An equation about a run says two things, that every strategy before the
one that answers declines and what that one builds. The first part is the
same for many shapes, so each strategy has its lemmas about the shapes it
declines (`Strategy`), and the equations put them together (`Pipeline`).
-/
import Fluxion.Proofs.Integral.Selection

namespace Fluxion

variable {α : Type} [Scalar α]

/-! ## What each strategy declines -/

namespace Strategy

variable {sub : Tree α → Except (Fault α) (Tree α)} {v : String}
variable {t u l r b c d e : Tree α} {n : α}

theorem powerRulePlan_of_not_mentions (h : c.mentions v = false) :
    powerRulePlan v c = .done (.binary .mul c (.var v)) := by
  have hvar : c.isVariable v = false := by
    rw [Bool.eq_false_iff]
    intro hc
    rw [eq_var_of_isVariable hc] at h
    simp [Tree.mentions] at h
  have hpow : c.isPowerOf v = false := by
    rw [Bool.eq_false_iff]
    intro hc
    obtain ⟨e, rfl, -⟩ := eq_pow_of_isPowerOf hc
    simp [Tree.mentions] at h
  simp [powerRulePlan, powerRest, hvar, hpow, h]

theorem powerRulePlan_unary (op : UnaryOp) (h : u.mentions v = true) :
    powerRulePlan v (.unary op u) = .decline := by
  simp [powerRulePlan, powerRest, Tree.isVariable, Tree.isPowerOf, Tree.mentions, h]

theorem powerRulePlan_sum {op : BinaryOp} (hop : op = .add ∨ op = .sub)
    (h : (Tree.binary op l r).mentions v = true) :
    powerRulePlan v (.binary op l r) = .decline := by
  rcases hop with rfl | rfl <;>
    simp [powerRulePlan, powerRest, Tree.isVariable, Tree.isPowerOf, h]

theorem powerRulePlan_mul_left (hc : c.mentions v = false) (hu : u.mentions v = true) :
    powerRulePlan v (.binary .mul c u) = .build u (.binary .mul c) := by
  simp [powerRulePlan, powerRest, Tree.isVariable, Tree.isPowerOf, Tree.mentions, hc, hu]

theorem powerRulePlan_mul_right (hc : c.mentions v = false) (hu : u.mentions v = true) :
    powerRulePlan v (.binary .mul u c) = .build u (.binary .mul c) := by
  simp [powerRulePlan, powerRest, Tree.isVariable, Tree.isPowerOf, Tree.mentions, hc, hu]

theorem powerRulePlan_mul (hl : l.mentions v = true) (hr : r.mentions v = true) :
    powerRulePlan v (.binary .mul l r) = .decline := by
  simp [powerRulePlan, powerRest, Tree.isVariable, Tree.isPowerOf, Tree.mentions, hl, hr]

theorem powerRulePlan_div (hl : l.mentions v = true) :
    powerRulePlan v (.binary .div l r) = .decline := by
  simp [powerRulePlan, powerRest, Tree.isVariable, Tree.isPowerOf, Tree.mentions, hl]

theorem powerRulePlan_reciprocal (hc : c.mentions v = false) (hd : d.mentions v = true) :
    powerRulePlan v (.binary .div c d) = reciprocal v c d := by
  simp [powerRulePlan, powerRest, Tree.isVariable, Tree.isPowerOf, Tree.mentions, hc, hd]

theorem powerRulePlan_power (he : e.mentions v = false) (hn : e.constantValue? = some n) :
    powerRulePlan v (.binary .pow (.var v) e) = ofPower v n := by
  simp [powerRulePlan, Tree.isVariable, Tree.isPowerOf, he, hn]

/-- A power of anything but the variable. -/
theorem powerRulePlan_pow (hb : b.isVariable v = false)
    (h : (Tree.binary .pow b e).mentions v = true) :
    powerRulePlan v (.binary .pow b e) = .decline := by
  have hvar : (Tree.binary .pow b e).isVariable v = false := rfl
  have hpow : (Tree.binary .pow b e).isPowerOf v = false := by
    rw [Tree.isPowerOf, hb, Bool.false_and]
  simp [powerRulePlan, powerRest, hvar, hpow, h]

theorem basicTrigPlan_binary {op : BinaryOp} (hop : op ≠ .pow) :
    basicTrigPlan v (.binary op l r) = .decline := by
  cases op <;> first | rfl | exact absurd rfl hop

theorem basicTrigPlan_pow (he : e.eq Tree.two = false) :
    basicTrigPlan v (.binary .pow b e) = .decline := by
  simp [basicTrigPlan, Tree.isFunctionOf, Tree.isSquaredFunctionOf, he]

theorem basicTrigPlan_unary {op : UnaryOp} (hsin : op ≠ .sin) (hcos : op ≠ .cos) :
    basicTrigPlan v (.unary op u) = .decline := by
  simp [basicTrigPlan, Tree.isFunctionOf, Tree.isSquaredFunctionOf, hsin, hcos]

theorem exponentialPlan_binary {op : BinaryOp} (hop : op ≠ .pow) :
    exponentialPlan v (.binary op l r) = .decline := by
  cases op <;> first | rfl | exact absurd rfl hop

theorem exponentialPlan_unary {op : UnaryOp} (hop : op ≠ .exp) :
    exponentialPlan v (.unary op u) = .decline := by
  simp [exponentialPlan, Tree.isFunctionOf, hop]

omit [Scalar α] in
theorem constantMultiplePlan_sum {op : BinaryOp} (hop : op = .add ∨ op = .sub) :
    constantMultiplePlan v (.binary op l r) = .decline := by
  rcases hop with rfl | rfl <;> rfl

omit [Scalar α] in
theorem constantMultiplePlan_mul (hl : l.mentions v = true) (hr : r.mentions v = true) :
    constantMultiplePlan v (.binary .mul l r) = .decline := by
  simp [constantMultiplePlan, hl, hr]

theorem byPartsPlan_sum {op : BinaryOp} (hop : op = .add ∨ op = .sub) :
    byPartsPlan v (.binary op l r) = .decline := by
  rcases hop with rfl | rfl <;> rfl

/-- A sum is no product and has no factor that is a function. -/
theorem substitutionPlan_sum [Numeral α] {m : Matching α} {op : BinaryOp}
    (hop : op = .add ∨ op = .sub) : substitutionPlan m v (.binary op l r) = .decline := by
  rcases hop with rfl | rfl <;> rfl

end Strategy

/-! ## Runs -/

namespace Pipeline

open Strategy

variable [Numeral α] {p : Pipeline α} {v : String} {n : Nat} {t u c d l r b e F G : Tree α} {k : α}

/-- The first strategy that does not decline answers. -/
theorem run_eq_ok (before : List (Strategy α)) (s : Strategy α) {after : List (Strategy α)}
    (hss : p.strategies = before ++ s :: after)
    (hbefore : ∀ q ∈ before, (q.plan v t).run (p.run v n) = .ok none)
    (hs : (s.plan v t).run (p.run v n) = .ok (some F)) : p.run v (n + 1) t = .ok F := by
  rw [run, claim_eq_ok_some.mpr ⟨before, after, hss, hbefore, hs⟩]

section Order

variable (hp : p.strategies = Strategy.standard)

include hp

theorem run_of_powerRule (h : (powerRulePlan v t).run (p.run v n) = .ok (some F)) :
    p.run v (n + 1) t = .ok F :=
  run_eq_ok [] .powerRule hp (by simp) h

theorem run_of_basicTrig (h₁ : powerRulePlan v t = .decline)
    (h : (basicTrigPlan v t).run (p.run v n) = .ok (some F)) : p.run v (n + 1) t = .ok F := by
  refine run_eq_ok [.powerRule] .basicTrig hp ?_ h
  simp [plan, h₁, Plan.run]

theorem run_of_exponential (h₁ : powerRulePlan v t = .decline) (h₂ : basicTrigPlan v t = .decline)
    (h : (exponentialPlan v t).run (p.run v n) = .ok (some F)) : p.run v (n + 1) t = .ok F := by
  refine run_eq_ok [.powerRule, .basicTrig] .exponential hp ?_ h
  simp [plan, h₁, h₂, Plan.run]

theorem run_of_constantMultiple (h₁ : powerRulePlan v t = .decline)
    (h₂ : basicTrigPlan v t = .decline) (h₃ : exponentialPlan v t = .decline)
    (h : (constantMultiplePlan v t).run (p.run v n) = .ok (some F)) :
    p.run v (n + 1) t = .ok F := by
  refine run_eq_ok [.powerRule, .basicTrig, .exponential] .constantMultiple hp ?_ h
  simp [plan, h₁, h₂, h₃, Plan.run]

theorem run_of_sumDifference (h₁ : powerRulePlan v t = .decline)
    (h₂ : basicTrigPlan v t = .decline) (h₃ : exponentialPlan v t = .decline)
    (h₄ : constantMultiplePlan v t = .decline) (h₅ : substitutionPlan .standard v t = .decline)
    (h₆ : byPartsPlan v t = .decline)
    (h : (sumDifferencePlan t).run (p.run v n) = .ok (some F)) : p.run v (n + 1) t = .ok F := by
  refine run_eq_ok [.powerRule, .basicTrig, .exponential, .constantMultiple,
    .substitution .standard, .byParts] .sumDifference hp ?_ h
  simp [plan, h₁, h₂, h₃, h₄, h₅, h₆, Plan.run]

/-! ### One level -/

theorem run_of_not_mentions (hc : c.mentions v = false) :
    p.run v (n + 1) c = .ok (.binary .mul c (.var v)) := by
  refine run_of_powerRule hp ?_
  rw [powerRulePlan_of_not_mentions hc, Plan.run]

theorem run_var : p.run v (n + 1) (.var v) = .ok (powerQuotient v Scalar.two) := by
  refine run_of_powerRule hp ?_
  simp [powerRulePlan, Tree.isVariable, Plan.run, powerQuotient, Tree.two]

theorem run_ln_power (he : e.mentions v = false) (hk : e.constantValue? = some k)
    (h : Scalar.eq k (Scalar.neg Scalar.one) = true) :
    p.run v (n + 1) (.binary .pow (.var v) e) = .ok (.unary .ln (.var v)) := by
  refine run_of_powerRule hp ?_
  rw [powerRulePlan_power he hk, ofPower, if_pos h, Plan.run]

theorem run_power (he : e.mentions v = false) (hk : e.constantValue? = some k)
    (h : Scalar.eq k (Scalar.neg Scalar.one) = false)
    (hfin : Scalar.isFinite (Scalar.add k Scalar.one) = true) :
    p.run v (n + 1) (.binary .pow (.var v) e) =
      .ok (powerQuotient v (Scalar.add k Scalar.one)) := by
  refine run_of_powerRule hp ?_
  rw [powerRulePlan_power he hk, ofPower, if_neg (by simp [h]), Plan.run_ofExcept, raisedPower,
    Tree.literal, if_pos hfin]
  rfl

theorem run_ln (hc : c.mentions v = false) :
    p.run v (n + 1) (.binary .div c (.var v)) = .ok (logTerm v c) := by
  refine run_of_powerRule hp ?_
  rw [powerRulePlan_reciprocal hc (by simp [Tree.mentions])]
  simp [reciprocal, Tree.isVariable, Plan.run]

theorem run_ln_first_power (hc : c.mentions v = false) (he : e.mentions v = false)
    (hk : e.constantValue? = some k) (h : Scalar.eq k Scalar.one = true) :
    p.run v (n + 1) (.binary .div c (.binary .pow (.var v) e)) = .ok (logTerm v c) := by
  refine run_of_powerRule hp ?_
  rw [powerRulePlan_reciprocal hc (by simp [Tree.mentions])]
  simp [reciprocal, Tree.isVariable, Tree.isPowerOf, he, hk, h, Plan.run]

theorem run_reciprocal (hc : c.mentions v = false) (he : e.mentions v = false)
    (hk : e.constantValue? = some k) (h : Scalar.eq k Scalar.one = false)
    (hfin : Scalar.isFinite (Scalar.sub Scalar.one k) = true) :
    p.run v (n + 1) (.binary .div c (.binary .pow (.var v) e)) =
      .ok (if c.eq Tree.one then powerQuotient v (Scalar.sub Scalar.one k)
        else .binary .mul c (powerQuotient v (Scalar.sub Scalar.one k))) := by
  refine run_of_powerRule hp ?_
  rw [powerRulePlan_reciprocal hc (by simp [Tree.mentions])]
  simp [reciprocal, Tree.isVariable, Tree.isPowerOf, he, hk, h, raisedPower, Tree.literal, hfin]
  rfl

theorem run_sin : p.run v (n + 1) (.unary .sin (.var v)) =
    .ok (.unary .neg (.unary .cos (.var v))) := by
  refine run_of_basicTrig hp (powerRulePlan_unary _ (by simp [Tree.mentions])) ?_
  simp [basicTrigPlan, Tree.isFunctionOf, Tree.isVariable, Plan.run]

theorem run_cos : p.run v (n + 1) (.unary .cos (.var v)) = .ok (.unary .sin (.var v)) := by
  refine run_of_basicTrig hp (powerRulePlan_unary _ (by simp [Tree.mentions])) ?_
  simp [basicTrigPlan, Tree.isFunctionOf, Tree.isVariable, Plan.run]

theorem run_sec_squared (he : e.eq Tree.two = true) :
    p.run v (n + 1) (.binary .pow (.unary .sec (.var v)) e) = .ok (.unary .tan (.var v)) := by
  refine run_of_basicTrig hp (powerRulePlan_pow rfl (by simp [Tree.mentions])) ?_
  simp [basicTrigPlan, Tree.isFunctionOf, Tree.isSquaredFunctionOf, Tree.isVariable, he, Plan.run]

theorem run_csc_squared (he : e.eq Tree.two = true) :
    p.run v (n + 1) (.binary .pow (.unary .csc (.var v)) e) =
      .ok (.unary .neg (.unary .cot (.var v))) := by
  refine run_of_basicTrig hp (powerRulePlan_pow rfl (by simp [Tree.mentions])) ?_
  simp [basicTrigPlan, Tree.isFunctionOf, Tree.isSquaredFunctionOf, Tree.isVariable, he, Plan.run]

theorem run_exp : p.run v (n + 1) (.unary .exp (.var v)) = .ok (.unary .exp (.var v)) := by
  refine run_of_exponential hp (powerRulePlan_unary _ (by simp [Tree.mentions]))
    (basicTrigPlan_unary (by decide) (by decide)) ?_
  simp [exponentialPlan, Tree.isFunctionOf, Tree.isVariable, Plan.run]

/-- The plan for `b ^ v` is the one that the exponential rule makes. -/
theorem run_of_exponential_base (hb : b.mentions v = false)
    (h : (exponentialPlan v (.binary .pow b (.var v))).run (p.run v n) = .ok (some F)) :
    p.run v (n + 1) (.binary .pow b (.var v)) = .ok F := by
  have hvar : b.isVariable v = false := by
    rw [Bool.eq_false_iff]
    intro hvar
    rw [eq_var_of_isVariable hvar] at hb
    simp [Tree.mentions] at hb
  exact run_of_exponential hp (powerRulePlan_pow hvar (by simp [Tree.mentions]))
    (basicTrigPlan_pow rfl) h

/-! ### Linear steps -/

theorem run_neg (hu : u.mentions v = true) (h : p.run v n u = .ok F) :
    p.run v (n + 1) (.unary .neg u) = .ok (.unary .neg F) := by
  refine run_of_constantMultiple hp (powerRulePlan_unary _ hu)
    (basicTrigPlan_unary (by decide) (by decide)) (exponentialPlan_unary (by decide)) ?_
  simp [constantMultiplePlan, Plan.build, Plan.run, h]

theorem run_mul_left (hc : c.mentions v = false) (hu : u.mentions v = true)
    (h : p.run v n u = .ok F) : p.run v (n + 1) (.binary .mul c u) = .ok (.binary .mul c F) := by
  refine run_of_powerRule hp ?_
  simp [powerRulePlan_mul_left hc hu, Plan.build, Plan.run, h]

theorem run_mul_right (hc : c.mentions v = false) (hu : u.mentions v = true)
    (h : p.run v n u = .ok F) : p.run v (n + 1) (.binary .mul u c) = .ok (.binary .mul c F) := by
  refine run_of_powerRule hp ?_
  simp [powerRulePlan_mul_right hc hu, Plan.build, Plan.run, h]

theorem run_div (hc : c.mentions v = false) (hu : u.mentions v = true)
    (h : p.run v n u = .ok F) : p.run v (n + 1) (.binary .div u c) = .ok (.binary .div F c) := by
  refine run_of_constantMultiple hp (powerRulePlan_div hu) (basicTrigPlan_binary (by decide))
    (exponentialPlan_binary (by decide)) ?_
  simp [constantMultiplePlan, hc, Plan.build, Plan.run, h]

theorem run_sum {op : BinaryOp} (hop : op = .add ∨ op = .sub)
    (hm : (Tree.binary op l r).mentions v = true) (hl : p.run v n l = .ok F)
    (hr : p.run v n r = .ok G) : p.run v (n + 1) (.binary op l r) = .ok (.binary op F G) := by
  have hpow : op ≠ .pow := by rcases hop with rfl | rfl <;> decide
  refine run_of_sumDifference hp (powerRulePlan_sum hop hm) (basicTrigPlan_binary hpow)
    (exponentialPlan_binary hpow) (constantMultiplePlan_sum hop) (substitutionPlan_sum hop)
    (byPartsPlan_sum hop) ?_
  rcases hop with rfl | rfl <;>
    simp [sumDifferencePlan, termwise, Plan.build, Plan.run, hl, hr]

end Order

end Pipeline

end Fluxion
