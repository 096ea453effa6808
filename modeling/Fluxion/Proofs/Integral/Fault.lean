/-
Faults of the strategies. A plan ends in a fault when a sub-integral does
(`Plan.Breaks`), or when a literal has to be made of a number that is not
finite (`Strategy.Overflows`); that is all that can happen
(`Strategy.breaks_or_overflows`).

Such a number arises at three places only: as the coefficient of the
product that integration by parts puts together, as the coefficient of the
other factors in a substitution, and as the ratio of two matched
coefficients. The exponents of the power rule are one more or one less
than a finite number and so are finite.
-/
import Fluxion.Proofs.Integral.Over

namespace Fluxion

variable {α : Type}

/-! ## Plans that end in a fault -/

namespace Plan

variable {sub : Tree α → Except (Fault α) (Tree α)} {u : Tree α} {e : Fault α}

/-- Carrying the plan out comes to ask for the integral of `u`. -/
inductive Asks (sub : Tree α → Except (Fault α) (Tree α)) : Plan α → Tree α → Prop
  | now {u next} : Asks sub (.ask u next) u
  | answered {u next w x} (hw : sub u = .ok w) (h : Asks sub (next (some w)) x) :
      Asks sub (.ask u next) x
  | declined {u next d x} (hd : sub u = .error d) (hdec : d.declines = true)
      (h : Asks sub (next none) x) : Asks sub (.ask u next) x

/-- A fault of a sub-integral that is no refusal ends the plan. -/
theorem Asks.run_eq_error {plan : Plan α} (h : plan.Asks sub u) (hu : sub u = .error e)
    (he : e.declines = false) : plan.run sub = .error e := by
  induction h with
  | now => rw [run, hu]; simp [he]
  | answered hw _ ih => rw [run, hw]; exact ih hu
  | declined hd hdec _ ih => rw [run, hd]; simp only [hdec, if_true]; exact ih hu

theorem ask_eq_error {next : Option (Tree α) → Plan α} (h : (ask u next).run sub = .error e) :
    (sub u = .error e ∧ e.declines = false) ∨
      (∃ w, sub u = .ok w ∧ (next (some w)).run sub = .error e) ∨
      (∃ d, sub u = .error d ∧ d.declines = true ∧ (next none).run sub = .error e) := by
  rw [run] at h
  split at h
  · next w hw => exact .inr (.inl ⟨w, hw, h⟩)
  · next d hd =>
    split at h
    · next hdec => exact .inr (.inr ⟨d, hd, hdec, h⟩)
    · next hdec =>
      cases h
      exact .inl ⟨hd, by simpa using hdec⟩

theorem build_eq_error {f : Tree α → Tree α} (h : (build u f).run sub = .error e) :
    sub u = .error e ∧ e.declines = false := by
  rcases ask_eq_error h with h | ⟨w, -, h⟩ | ⟨d, -, -, h⟩
  · exact h
  · cases h
  · cases h

variable [Scalar α]

/-- The plan ends in a fault of a sub-integral over the names `P`. -/
def Breaks (P : String → Prop) (sub : Tree α → Except (Fault α) (Tree α)) (plan : Plan α)
    (e : Fault α) : Prop :=
  ∃ u, u.Over P ∧ plan.Asks sub u ∧ sub u = .error e ∧ e.declines = false

theorem breaks_build {P : String → Prop} {f : Tree α → Tree α} (hu : u.Over P)
    (h : (build u f).run sub = .error e) : (build u f).Breaks P sub e :=
  ⟨u, hu, .now, build_eq_error h⟩

end Plan

variable [Scalar α]

/-! ## Coefficients -/

section Coefficient

variable [Steady α]

theorem Tree.lead_eq_error {c : α} {ts : List (Tree α)} {e : Fault α} :
    lead c ts = .error e ↔ Scalar.isFinite c = false ∧ e = .notFinite c := by
  -- a coefficient equal to one or minus one is finite
  have unit {t : Tree α} {b : α} (hb : Scalar.isFinite b = true) (h : Scalar.eq c b = true) :
      (.ok t : Except (Fault α) (Tree α)) = .error e ↔
        Scalar.isFinite c = false ∧ e = .notFinite c := by
    simp [Steady.isFinite_of_eq h hb]
  unfold lead
  split
  · exact literal_eq_error
  split
  · exact literal_eq_error
  split
  · next h => exact unit Steady.isFinite_one h
  split
  · next h => exact unit (Steady.isFinite_neg Steady.isFinite_one) h
  · rw [map_eq_error, literal_eq_error]

/-- Regrouping is refused for the coefficient alone. -/
theorem Tree.regroup_eq_error {fs : List (Tree α)} {e : Fault α} :
    regroup fs = .error e ↔
      Scalar.isFinite (collect fs).1 = false ∧ e = .notFinite (collect fs).1 :=
  lead_eq_error

theorem Strategy.scaledBy_eq_error {k : α} {g : Tree α} {e : Fault α} :
    scaledBy k g = .error e ↔ Scalar.isFinite k = false ∧ e = .notFinite k := by
  unfold scaledBy
  split
  · next h => simp [Steady.isFinite_of_eq h Steady.isFinite_one]
  · rw [map_eq_error, Tree.literal_eq_error]

theorem Strategy.cofactor_eq_error {rest : List (Tree α)} {e : Fault α} :
    cofactor rest = .error e ↔
      Scalar.isFinite (Tree.collect rest).1 = false ∧ e = .notFinite (Tree.collect rest).1 := by
  unfold cofactor
  split
  · next h =>
    have hone : Scalar.isFinite (Tree.collect rest).1 = true := by
      rw [List.isEmpty_iff.mp h]; exact Steady.isFinite_one
    simp [hone]
  · exact Tree.regroup_eq_error

end Coefficient

/-! ## Where a literal cannot be made -/

namespace Strategy

section Substitution

variable [Numeral α]

/-- The factor is no outer function of `v`, or its inner tree does not
match the others. -/
def Passes (m : Matching α) (v : String) (factor : Tree α) (others : List (Tree α)) : Prop :=
  ∀ op u g, factor = .unary op u → outerAntiderivative? op u = some g → u.mentions v = true →
    ∃ c, cofactor others = .ok c ∧ m.ratio? c u v = none

/-- The factor is an outer function of `v`, and the coefficient of the
others or the ratio they are matched with is the number `a`, which is not
finite. -/
def FactorOverflows (m : Matching α) (v : String) (factor : Tree α) (others : List (Tree α))
    (a : α) : Prop :=
  ∃ op u g, factor = .unary op u ∧ outerAntiderivative? op u = some g ∧ u.mentions v = true ∧
    Scalar.isFinite a = false ∧
    (a = (Tree.collect others).1 ∨ ∃ c, cofactor others = .ok c ∧ m.ratio? c u v = some a)

variable {m : Matching α} {v : String} {before after : List (Tree α)} {factor : Tree α}
  {e : Fault α}

/-- A factor that passes is stepped over. -/
theorem substituteFactor_of_passes (h : Passes m v factor (before ++ after)) :
    substituteFactor m v before (factor :: after) =
      substituteFactor m v (before ++ [factor]) after := by
  cases factor with
  | unary op u =>
    rw [substituteFactor]
    split
    · next g hg =>
      split
      · next hu =>
        obtain ⟨c, hc, hk⟩ := h op u g rfl hg hu
        simp only [hc, hk]
      · rfl
    · rfl
  | _ => rfl

variable [Steady α]

/-- What happens at one factor when the search ends in a fault. -/
theorem factor_of_error (h : substituteFactor m v before (factor :: after) = .error e) :
    (∃ a, e = .notFinite a ∧ FactorOverflows m v factor (before ++ after) a) ∨
      (Passes m v factor (before ++ after) ∧
        substituteFactor m v (before ++ [factor]) after = .error e) := by
  cases factor with
  | unary op u =>
    rw [substituteFactor] at h
    split at h
    · next g hg =>
      split at h
      · next hu =>
        split at h
        · next hc =>
          cases h
          obtain ⟨hfin, rfl⟩ := cofactor_eq_error.mp hc
          exact .inl ⟨_, rfl, op, u, g, rfl, hg, hu, hfin, .inl rfl⟩
        · next c hc =>
          split at h
          · next k hk =>
            rw [map_eq_error] at h
            obtain ⟨hfin, rfl⟩ := scaledBy_eq_error.mp h
            exact .inl ⟨k, rfl, op, u, g, rfl, hg, hu, hfin, .inr ⟨c, hc, hk⟩⟩
          · next hk =>
            refine .inr ⟨?_, h⟩
            rintro op u g ⟨⟩ - -
            exact ⟨c, hc, hk⟩
      · next hu =>
        refine .inr ⟨?_, h⟩
        rintro op u g ⟨⟩ - hu'
        exact absurd hu' hu
    · next hg =>
      refine .inr ⟨?_, h⟩
      rintro op u g ⟨⟩ hg' -
      rw [hg] at hg'
      cases hg'
  | _ => exact .inr ⟨by rintro op u g ⟨⟩, h⟩

theorem error_of_factorOverflows {a : α} (h : FactorOverflows m v factor (before ++ after) a) :
    substituteFactor m v before (factor :: after) = .error (.notFinite a) := by
  obtain ⟨op, u, g, rfl, hg, hu, hfin, h⟩ := h
  rw [substituteFactor]
  simp only [hg, hu, if_true]
  rcases h with rfl | ⟨c, hc, hk⟩
  · rw [cofactor_eq_error.mpr ⟨hfin, rfl⟩]
  · simp only [hc, hk]
    rw [map_eq_error, scaledBy_eq_error]
    exact ⟨hfin, rfl⟩

/-- The search for a factor ends in a fault when some factor overflows and
those before it pass. -/
theorem substituteFactor_eq_error {fs : List (Tree α)} :
    substituteFactor m v before fs = .error e ↔
      ∃ a passed factor after, e = .notFinite a ∧ fs = passed ++ factor :: after ∧
        (∀ b f c, passed = b ++ f :: c → Passes m v f (before ++ b ++ (c ++ factor :: after))) ∧
        FactorOverflows m v factor (before ++ passed ++ after) a := by
  induction fs generalizing before with
  | nil =>
    constructor
    · intro h; cases h
    · rintro ⟨a, passed, factor, after, -, h, -⟩; cases passed <;> cases h
  | cons f fs ih =>
    constructor
    · intro h
      rcases factor_of_error h with ⟨a, rfl, ha⟩ | ⟨hpass, h⟩
      · exact ⟨a, [], f, fs, rfl, rfl, by simp, by simpa using ha⟩
      · obtain ⟨a, passed, factor, after, rfl, rfl, hp, ha⟩ := ih.mp h
        refine ⟨a, f :: passed, factor, after, rfl, rfl, ?_, by simpa using ha⟩
        intro b g c hb
        cases b with
        | nil =>
          obtain ⟨rfl, rfl⟩ := List.cons.inj hb
          simpa using hpass
        | cons b bs =>
          obtain ⟨rfl, hb'⟩ := List.cons.inj hb
          simpa using hp bs g c hb'
    · rintro ⟨a, passed, factor, after, rfl, hfs, hp, ha⟩
      cases passed with
      | nil =>
        obtain ⟨rfl, rfl⟩ := List.cons.inj hfs
        exact error_of_factorOverflows (by simpa using ha)
      | cons b bs =>
        obtain ⟨rfl, rfl⟩ := List.cons.inj hfs
        rw [substituteFactor_of_passes (by simpa using hp [] f bs rfl)]
        refine ih.mpr ⟨a, bs, factor, after, rfl, rfl, ?_, by simpa using ha⟩
        intro b g c hb
        simpa using hp (f :: b) g c (by rw [hb]; rfl)

end Substitution

section Strategies

variable {sub : Tree α → Except (Fault α) (Tree α)} {v : String} {t : Tree α} {e : Fault α}
variable {P : String → Prop}

/-- Integration by parts with `u` and `dv` comes to the coefficient `a` of
the product it puts together, which is not finite. -/
def PartsOverflow (sub : Tree α → Except (Fault α) (Tree α)) (v : String) (u dv : Tree α)
    (a : α) : Prop :=
  u.isPolynomialLike v = true ∧ dv.isIntegrableFactor v = true ∧ Scalar.isFinite a = false ∧
    ∃ w, sub dv = .ok w ∧ a = (Tree.collect [w, (u.derivative v).simplify]).1

/-- The strategy comes to make a literal of `a`, which is not finite. -/
inductive Overflows [Numeral α] (sub : Tree α → Except (Fault α) (Tree α)) (v : String) :
    Strategy α → Tree α → α → Prop
  | parts {l r a} (h : PartsOverflow sub v l r a) : Overflows sub v .byParts (.binary .mul l r) a
  | partsReversed {l r a} (hl : (partsPlan v l r .decline).run sub = .ok none)
      (h : PartsOverflow sub v r l a) : Overflows sub v .byParts (.binary .mul l r) a
  | substitution {m t passed factor after a} (hfactors : t.factors = passed ++ factor :: after)
      (hpassed : ∀ b f c, passed = b ++ f :: c → Passes m v f (b ++ (c ++ factor :: after)))
      (h : FactorOverflows m v factor (passed ++ after) a) :
      Overflows sub v (.substitution m) t a

/-! ## Faults of the strategies -/

theorem isFinite_constantValue {e : Tree α} {n : α} (he : e.Over P)
    (h : e.constantValue? = some n) : Scalar.isFinite n = true := by
  unfold Tree.constantValue? at h
  split at h
  · cases h; exact he
  · split at h
    · next a ha =>
      cases h
      unfold Tree.evaluate at ha
      obtain ⟨b, -, hb⟩ := bind_eq_ok.mp ha
      split at hb
      · next hfin => cases hb; exact hfin
      · cases hb
    · cases h

theorem raisedPower_ne_error {n : α} (h : Scalar.isFinite n = true) :
    raisedPower v n ≠ .error e := by
  rw [raisedPower, ne_eq, map_eq_error, Tree.literal_eq_error, h]
  exact fun h => by cases h.1

/-- Table integrals ask for nothing and refuse nothing. -/
theorem basicTrigPlan_ne_error : (basicTrigPlan v t).run sub ≠ .error e := by
  unfold basicTrigPlan
  intro h
  split at h
  · cases h
  split at h
  · cases h
  split at h
  · cases h
  split at h <;> cases h

theorem exponentialPlan_ne_error : (exponentialPlan v t).run sub ≠ .error e := by
  unfold exponentialPlan
  intro h
  split at h
  · cases h
  split at h
  · split at h
    · split at h
      · split at h
        · cases h
        split at h <;> cases h
      · cases h
    · cases h
  · cases h

theorem breaks_constantMultiplePlan (ht : t.Over P) :
    (constantMultiplePlan v t).run sub = .error e →
      (constantMultiplePlan v t).Breaks P sub e := by
  unfold constantMultiplePlan
  split
  · next u => exact Plan.breaks_build (u := u) ht
  · split
    · exact Plan.breaks_build ht.2
    split
    · exact Plan.breaks_build ht.1
    · intro h; cases h
  · split
    · exact Plan.breaks_build ht.1
    · intro h; cases h
  · intro h; cases h

theorem breaks_termwise {op : BinaryOp} {l r : Tree α} (hl : l.Over P) (hr : r.Over P)
    (h : (termwise op l r).run sub = .error e) : (termwise op l r).Breaks P sub e := by
  rcases Plan.ask_eq_error h with h | ⟨w, hw, h⟩ | ⟨d, -, -, h⟩
  · exact ⟨l, hl, .now, h⟩
  · exact ⟨r, hr, .answered hw .now, Plan.build_eq_error h⟩
  · cases h

theorem breaks_sumDifferencePlan (ht : t.Over P) :
    (sumDifferencePlan t).run sub = .error e → (sumDifferencePlan t).Breaks P sub e := by
  unfold sumDifferencePlan
  split
  · exact breaks_termwise ht.1 ht.2
  · exact breaks_termwise ht.1 ht.2
  · intro h; cases h

/-- An order that declines leaves the run to what is tried otherwise. -/
theorem run_partsPlan_of_declines {u dv : Tree α} {otherwise : Plan α}
    (h : (partsPlan v u dv .decline).run sub = .ok none) :
    (partsPlan v u dv otherwise).run sub = otherwise.run sub := by
  unfold partsPlan at h ⊢
  split at h
  · next hcond =>
    simp only [hcond, if_true, Plan.run] at h ⊢
    split at h
    · next w hw =>
      split at h
      · cases h
      · next rest hrest =>
        simp only [Plan.run] at h ⊢
        split at h
        · cases h
        · next d hd => split at h <;> simp_all
    · next d hd => split at h <;> simp_all
  · next hcond => simp only [hcond]; rfl

section Steady

variable [Steady α]

theorem breaks_reciprocal {c d : Tree α} (hd : d.Over P) :
    (reciprocal v c d).run sub = .error e → (reciprocal v c d).Breaks P sub e := by
  unfold reciprocal
  split
  · intro h; cases h
  split
  · split
    · next b n =>
      split
      · intro h; cases h
      · next k hk =>
        split
        · intro h; cases h
        · intro h
          rw [Plan.run_ofExcept, map_eq_error] at h
          exact absurd h (raisedPower_ne_error
            (Steady.isFinite_one_sub (isFinite_constantValue hd.2 hk)))
    · intro h; cases h
  · intro h; cases h

theorem breaks_powerRest (ht : t.Over P) :
    (powerRest v t).run sub = .error e → (powerRest v t).Breaks P sub e := by
  unfold powerRest
  split
  · intro h; cases h
  split
  · split
    · exact Plan.breaks_build ht.2
    split
    · exact Plan.breaks_build ht.1
    · intro h; cases h
  · split
    · exact breaks_reciprocal ht.2
    · intro h; cases h
  · intro h; cases h

theorem breaks_powerRulePlan (ht : t.Over P) :
    (powerRulePlan v t).run sub = .error e → (powerRulePlan v t).Breaks P sub e := by
  unfold powerRulePlan
  split
  · intro h; cases h
  split
  · split
    · next b n =>
      split
      · next k hk =>
        unfold ofPower
        split
        · intro h; cases h
        · intro h
          rw [Plan.run_ofExcept, map_eq_error] at h
          exact absurd h (raisedPower_ne_error
            (Steady.isFinite_add_one (isFinite_constantValue ht.2 hk)))
      · exact breaks_powerRest ht
    · exact breaks_powerRest ht
  · exact breaks_powerRest ht

/-- One order of a product: the plan ends in a fault of a sub-integral, in
a coefficient that is not finite, or in what is tried otherwise. -/
theorem parts_of_error {u dv : Tree α} {otherwise : Plan α} (hu : u.Over P) (hdv : dv.Over P)
    (hsub : ∀ {x w}, x.Over P → sub x = .ok w → w.Over P)
    (h : (partsPlan v u dv otherwise).run sub = .error e) :
    (partsPlan v u dv otherwise).Breaks P sub e ∨
      (∃ a, e = .notFinite a ∧ PartsOverflow sub v u dv a) ∨
      ((partsPlan v u dv .decline).run sub = .ok none ∧ otherwise.run sub = .error e ∧
        ∀ x, otherwise.Asks sub x → (partsPlan v u dv otherwise).Asks sub x) := by
  unfold partsPlan at h ⊢
  split at h
  · next hcond =>
    obtain ⟨hpoly, hfactor⟩ := Bool.and_eq_true_iff.mp hcond
    simp only [hcond, if_true]
    rcases Plan.ask_eq_error h with h | ⟨w, hw, h⟩ | ⟨d, hd, hdec, h⟩
    · exact .inl ⟨dv, hdv, .now, h⟩
    · dsimp only at h
      split at h
      · next hrest =>
        cases h
        obtain ⟨hfin, rfl⟩ := Tree.regroup_eq_error.mp hrest
        exact .inr (.inl ⟨_, rfl, hpoly, hfactor, hfin, w, hw, rfl⟩)
      · next rest hrest =>
        have hover : rest.Over P := Tree.over_regroup (over_parts hu (hsub hdv hw)) hrest
        rcases Plan.ask_eq_error h with h | ⟨s, -, h⟩ | ⟨d, hd, hdec, h⟩
        · exact .inl ⟨rest, hover, .answered hw (by simp only [hrest]; exact .now), h⟩
        · cases h
        · refine .inr (.inr ⟨?_, h, fun x hx => ?_⟩)
          · simp [Plan.run, hw, hrest, hd, hdec]
          · exact .answered hw (by simp only [hrest]; exact .declined hd hdec hx)
    · refine .inr (.inr ⟨?_, h, fun x hx => .declined hd hdec hx⟩)
      simp [Plan.run, hd, hdec]
  · next hcond =>
    simp only [hcond]
    exact .inr (.inr ⟨rfl, h, fun x hx => hx⟩)

theorem breaks_or_overflows_byParts [Numeral α] (ht : t.Over P)
    (hsub : ∀ {x w}, x.Over P → sub x = .ok w → w.Over P)
    (h : (byPartsPlan v t).run sub = .error e) :
    (byPartsPlan v t).Breaks P sub e ∨ ∃ a, e = .notFinite a ∧ Overflows sub v .byParts t a := by
  unfold byPartsPlan at h ⊢
  split at h
  · rcases parts_of_error ht.1 ht.2 hsub h with hb | ⟨a, he, ha⟩ | ⟨hl, h, hasks⟩
    · exact .inl hb
    · exact .inr ⟨a, he, .parts ha⟩
    · rcases parts_of_error ht.2 ht.1 hsub h with ⟨u, hu, hask, hb⟩ | ⟨a, he, ha⟩ | ⟨-, h, -⟩
      · exact .inl ⟨u, hu, hasks u hask, hb⟩
      · exact .inr ⟨a, he, .partsReversed hl ha⟩
      · cases h
  · cases h

/-- A strategy fails by a fault of one of its sub-integrals, or by a number
that is not finite. -/
theorem breaks_or_overflows [Numeral α] {s : Strategy α} (ht : t.Over P)
    (hsub : ∀ {x w}, x.Over P → sub x = .ok w → w.Over P)
    (h : (s.plan v t).run sub = .error e) :
    (s.plan v t).Breaks P sub e ∨ ∃ a, e = .notFinite a ∧ s.Overflows sub v t a := by
  cases s with
  | powerRule => exact .inl (breaks_powerRulePlan ht h)
  | basicTrig => exact absurd h basicTrigPlan_ne_error
  | exponential => exact absurd h exponentialPlan_ne_error
  | constantMultiple => exact .inl (breaks_constantMultiplePlan ht h)
  | substitution m =>
    rw [plan, substitutionPlan, Plan.run_ofExcept, substituteFactor_eq_error] at h
    obtain ⟨a, passed, factor, after, he, hfactors, hpassed, ha⟩ := h
    exact .inr ⟨a, he, .substitution hfactors hpassed ha⟩
  | byParts => exact breaks_or_overflows_byParts ht hsub h
  | sumDifference => exact .inl (breaks_sumDifferencePlan ht h)

theorem PartsOverflow.run_eq_error {u dv : Tree α} {otherwise : Plan α} {a : α}
    (h : PartsOverflow sub v u dv a) :
    (partsPlan v u dv otherwise).run sub = .error (.notFinite a) := by
  obtain ⟨hpoly, hfactor, hfin, w, hw, rfl⟩ := h
  have hrest := Tree.regroup_eq_error.mpr ⟨hfin, rfl⟩
  simp [partsPlan, hpoly, hfactor, Plan.run, hw, hrest]

theorem Overflows.run_eq_error [Numeral α] {s : Strategy α} {a : α} (h : s.Overflows sub v t a) :
    (s.plan v t).run sub = .error (.notFinite a) := by
  cases h with
  | parts h => exact h.run_eq_error
  | partsReversed hl h =>
    rw [plan, byPartsPlan, run_partsPlan_of_declines hl]
    exact h.run_eq_error
  | substitution hfactors hpassed h =>
    rw [plan, substitutionPlan, Plan.run_ofExcept, substituteFactor_eq_error]
    exact ⟨a, _, _, _, rfl, hfactors, hpassed, h⟩

end Steady

end Strategies

end Strategy

end Fluxion
