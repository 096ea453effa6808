/-
Integration does not depend on what variables are called: for an injective
renaming of identifiers the outcome for the renamed integrand is the
renamed outcome, be it an antiderivative or a fault (`integrate_rename`).

Every strategy makes for the renamed integrand the renamed plan
(`renamed_plan`); renamed plans ask for renamed integrals, and an induction
on the levels left answers them. A plan may depend on an answer, so answers
have to be trees over identifiers too.

What is asked of the numbers, that a text and a fingerprint tell which
number it is, holds in double precision.
-/
import Fluxion.Proofs.Integral.Recognition
import Fluxion.Proofs.Integral.Over
import Fluxion.Proofs.Integral.Selection
import Fluxion.Proofs.Double.Spelling

namespace Fluxion

open Text

variable {α : Type} {σ : Renaming} {v : String}

theorem Fault.declines_rename (e : Fault α) : (e.rename σ).declines = e.declines := by
  cases e <;> rfl

theorem Fault.refuses_rename (e : Fault α) : (e.rename σ).refuses = e.refuses := by
  cases e <;> rfl

variable [Scalar α]

namespace Plan

/-- A plan and the plan for the renamed integrand. -/
inductive Renamed (σ : Renaming) : Plan α → Plan α → Prop
  | decline : Renamed σ .decline .decline
  | done (t : Tree α) : Renamed σ (.done t) (.done (t.rename σ))
  | fail (e : Fault α) : Renamed σ (.fail e) (.fail (e.rename σ))
  | ask {u next next'} (hu : u.Over IsIdentifier) (hnone : Renamed σ (next none) (next' none))
      (hsome : ∀ w, w.Over IsIdentifier →
        Renamed σ (next (some w)) (next' (some (w.rename σ)))) :
      Renamed σ (.ask u next) (.ask (u.rename σ) next')

theorem renamed_ofExcept {r r' : Except (Fault α) (Option (Tree α))}
    (h : r' = σ.outcome (Option.map (Tree.rename σ)) r) : Renamed σ (ofExcept r) (ofExcept r') := by
  subst h
  rcases r with e | _ | t
  · exact .fail e
  · exact .decline
  · exact .done t

theorem renamed_build {u : Tree α} (hu : u.Over IsIdentifier) {f f' : Tree α → Tree α}
    (hf : ∀ w, f' (w.rename σ) = (f w).rename σ) :
    Renamed σ (build u f) (build (u.rename σ) f') := by
  refine .ask hu .decline fun w _ => ?_
  show Renamed σ (.done (f w)) (.done (f' (w.rename σ)))
  rw [hf]
  exact .done _

/-- Renamed plans have renamed outcomes, when sub-integrals have. -/
theorem Renamed.run {plan plan' : Plan α} (h : Renamed σ plan plan')
    {sub sub' : Tree α → Except (Fault α) (Tree α)}
    (hsub : ∀ u, u.Over IsIdentifier → sub' (u.rename σ) = σ.outcome (Tree.rename σ) (sub u))
    (hover : ∀ {u w}, u.Over IsIdentifier → sub u = .ok w → w.Over IsIdentifier) :
    plan'.run sub' = σ.outcome (Option.map (Tree.rename σ)) (plan.run sub) := by
  induction h with
  | decline => rfl
  | done t => rfl
  | fail e => rfl
  | @ask u next next' hu _ _ ihnone ihsome =>
    rw [Plan.run, Plan.run, hsub u hu]
    cases hw : sub u with
    | ok w => exact ihsome w (hover hu hw)
    | error e =>
      simp only [Renaming.outcome, Fault.declines_rename]
      split
      · exact ihnone
      · rfl

end Plan

namespace Strategy

open Plan (Renamed)

variable {t : Tree α}

/-! ## Power rule -/

section

variable [Fingerprinted α] [Steady α]

theorem logTerm_rename {c : Tree α} (hc : c.Over IsIdentifier) :
    logTerm (σ.name v) (c.rename σ) = (logTerm v c).rename σ := by
  have hone : (c.rename σ).eq Tree.one = c.eq Tree.one := Tree.eq_rename hc Tree.over_one
  rw [logTerm, logTerm, hone]
  split <;> rfl

omit [Fingerprinted α] [Steady α] in
theorem raisedPower_rename (n : α) :
    raisedPower (σ.name v) n = σ.outcome (Tree.rename σ) (raisedPower v n) := by
  unfold raisedPower Tree.literal
  split <;> rfl

theorem renamed_reciprocal {c d : Tree α} (hc : c.Over IsIdentifier) (hd : d.Over IsIdentifier)
    (hv : IsIdentifier v) :
    Renamed σ (reciprocal v c d) (reciprocal (σ.name v) (c.rename σ) (d.rename σ)) := by
  unfold reciprocal
  rw [Tree.isVariable_rename hd hv, Tree.isPowerOf_rename hd hv,
    logTerm_rename hc]
  split
  · exact .done _
  split
  · next hpow =>
    obtain ⟨e, rfl, -⟩ := eq_pow_of_isPowerOf hpow
    simp only [Tree.rename, Tree.constantValue?_rename]
    split
    · exact .decline
    · next n hn =>
      split
      · exact .done _
      · refine Plan.renamed_ofExcept ?_
        have hone : (c.rename σ).eq Tree.one = c.eq Tree.one := Tree.eq_rename hc Tree.over_one
        rw [raisedPower_rename, hone]
        cases raisedPower v (Scalar.sub Scalar.one n) with
        | error e => rfl
        | ok t =>
          simp only [Renaming.outcome, Except.map, Option.map_some]
          split <;> rfl
  · exact .decline

omit [Fingerprinted α] [Steady α] in
theorem renamed_ofPower (n : α) : Renamed σ (ofPower v n) (ofPower (σ.name v) n) := by
  unfold ofPower
  split
  · exact .done _
  · refine Plan.renamed_ofExcept ?_
    rw [raisedPower_rename]
    cases raisedPower v (Scalar.add n Scalar.one) <;> rfl

theorem renamed_powerRest (ht : t.Over IsIdentifier) (hv : IsIdentifier v) :
    Renamed σ (powerRest v t) (powerRest (σ.name v) (t.rename σ)) := by
  unfold powerRest
  rw [Tree.mentions_rename ht hv]
  split
  · exact .done _
  cases t with
  | binary op l r =>
    cases op with
    | mul =>
      simp only [Tree.rename, Tree.mentions_rename ht.1 hv, Tree.mentions_rename ht.2 hv]
      split
      · exact Plan.renamed_build ht.2 fun _ => rfl
      split
      · exact Plan.renamed_build ht.1 fun _ => rfl
      · exact .decline
    | div =>
      simp only [Tree.rename, Tree.mentions_rename ht.1 hv]
      split
      · exact renamed_reciprocal ht.1 ht.2 hv
      · exact .decline
    | _ => exact .decline
  | _ => exact .decline

theorem renamed_powerRulePlan (ht : t.Over IsIdentifier) (hv : IsIdentifier v) :
    Renamed σ (powerRulePlan v t) (powerRulePlan (σ.name v) (t.rename σ)) := by
  have hrest := renamed_powerRest (σ := σ) ht hv
  unfold powerRulePlan
  rw [Tree.isVariable_rename ht hv, Tree.isPowerOf_rename ht hv]
  split
  · exact .done _
  split
  · next hpow =>
    obtain ⟨e, rfl, -⟩ := eq_pow_of_isPowerOf hpow
    simp only [Tree.rename, Tree.constantValue?_rename] at hrest ⊢
    split
    · exact renamed_ofPower _
    · exact hrest
  · exact hrest

/-! ## Table integrals -/

theorem renamed_basicTrigPlan (ht : t.Over IsIdentifier) (hv : IsIdentifier v) :
    Renamed σ (basicTrigPlan v t) (basicTrigPlan (σ.name v) (t.rename σ)) := by
  simp only [basicTrigPlan, Tree.isFunctionOf_rename ht hv, Tree.isSquaredFunctionOf_rename ht hv]
  split
  · exact .done _
  split
  · exact .done _
  split
  · exact .done _
  split
  · exact .done _
  · exact .decline

omit [Fingerprinted α] [Steady α] in
theorem renamed_exponentialPlan (ht : t.Over IsIdentifier) (hv : IsIdentifier v) :
    Renamed σ (exponentialPlan v t) (exponentialPlan (σ.name v) (t.rename σ)) := by
  unfold exponentialPlan
  rw [Tree.isFunctionOf_rename ht hv]
  split
  · exact .done _
  cases t with
  | binary op b e =>
    cases op with
    | pow =>
      simp only [Tree.rename, Tree.isVariable_rename ht.2 hv, Tree.mentions_rename ht.1 hv,
        Tree.constantValue?_rename]
      split
      · split
        · split
          · exact .done _
          split
          · exact .decline
          · exact .done _
        · exact .done _
      · exact .decline
    | _ => exact .decline
  | _ => exact .decline

end

/-! ## Linearity -/

theorem renamed_constantMultiplePlan (ht : t.Over IsIdentifier) (hv : IsIdentifier v) :
    Renamed σ (constantMultiplePlan v t) (constantMultiplePlan (σ.name v) (t.rename σ)) := by
  cases t with
  | unary op u =>
    cases op with
    | neg => exact Plan.renamed_build (u := u) ht fun _ => rfl
    | _ => exact .decline
  | binary op l r =>
    cases op with
    | mul =>
      simp only [Tree.rename, constantMultiplePlan, Tree.mentions_rename ht.1 hv,
        Tree.mentions_rename ht.2 hv]
      split
      · exact Plan.renamed_build ht.2 fun _ => rfl
      split
      · exact Plan.renamed_build ht.1 fun _ => rfl
      · exact .decline
    | div =>
      simp only [Tree.rename, constantMultiplePlan, Tree.mentions_rename ht.2 hv]
      split
      · exact Plan.renamed_build ht.1 fun _ => rfl
      · exact .decline
    | _ => exact .decline
  | _ => exact .decline

theorem renamed_termwise (op : BinaryOp) {l r : Tree α} (hl : l.Over IsIdentifier)
    (hr : r.Over IsIdentifier) :
    Renamed σ (termwise op l r) (termwise op (l.rename σ) (r.rename σ)) :=
  .ask hl .decline fun _ _ => Plan.renamed_build hr fun _ => rfl

theorem renamed_sumDifferencePlan (ht : t.Over IsIdentifier) :
    Renamed σ (sumDifferencePlan t) (sumDifferencePlan (t.rename σ)) := by
  cases t with
  | binary op l r =>
    cases op with
    | add => exact renamed_termwise .add ht.1 ht.2
    | sub => exact renamed_termwise .sub ht.1 ht.2
    | _ => exact .decline
  | _ => exact .decline

/-! ## Integration by parts -/

section

variable [Fingerprinted α] [Steady α]

theorem renamed_partsPlan {u dv : Tree α} {otherwise otherwise' : Plan α}
    (hu : u.Over IsIdentifier) (hdv : dv.Over IsIdentifier) (hv : IsIdentifier v)
    (h : Renamed σ otherwise otherwise') :
    Renamed σ (partsPlan v u dv otherwise)
      (partsPlan (σ.name v) (u.rename σ) (dv.rename σ) otherwise') := by
  have hdu : ((u.rename σ).derivative (σ.name v)).simplify =
      ((u.derivative v).simplify).rename σ := by
    rw [Tree.derivative_rename hu hv, Tree.simplify_rename (Tree.over_derivative hu)]
  rw [partsPlan, partsPlan, Tree.isPolynomialLike_rename hu hv,
    Tree.isIntegrableFactor_rename hdv hv]
  split
  · refine .ask hdv h fun w hw => ?_
    have hregroup : Tree.regroup [w.rename σ, ((u.derivative v).simplify).rename σ] =
        σ.outcome (Tree.rename σ) (Tree.regroup [w, (u.derivative v).simplify]) :=
      Tree.regroup_rename [w, (u.derivative v).simplify]
    simp only [hdu, hregroup]
    cases hrest : Tree.regroup [w, (u.derivative v).simplify] with
    | error e => exact .fail e
    | ok rest =>
      have hover : rest.Over IsIdentifier := Tree.over_regroup (over_parts hu hw) hrest
      exact .ask hover h fun s _ => .done (.binary .sub (.binary .mul u w) s)
  · exact h

theorem renamed_byPartsPlan (ht : t.Over IsIdentifier) (hv : IsIdentifier v) :
    Renamed σ (byPartsPlan v t) (byPartsPlan (σ.name v) (t.rename σ)) := by
  cases t with
  | binary op l r =>
    cases op with
    | mul => exact renamed_partsPlan ht.1 ht.2 hv (renamed_partsPlan ht.2 ht.1 hv .decline)
    | _ => exact .decline
  | _ => exact .decline

end

/-! ## Substitution -/

omit [Scalar α] in
theorem outerAntiderivative?_rename (op : UnaryOp) (u : Tree α) :
    outerAntiderivative? op (u.rename σ) = (outerAntiderivative? op u).map (Tree.rename σ) := by
  cases op <;> rfl

theorem scaledBy_rename (k : α) (g : Tree α) :
    scaledBy k (g.rename σ) = σ.outcome (Tree.rename σ) (scaledBy k g) := by
  unfold scaledBy Tree.literal
  split
  · rfl
  · split <;> rfl

theorem cofactor_rename (rest : List (Tree α)) :
    cofactor (rest.map (Tree.rename σ)) = σ.outcome (Tree.rename σ) (cofactor rest) := by
  unfold cofactor
  rw [List.isEmpty_map]
  split
  · rfl
  · exact Tree.regroup_rename rest

variable [Numeral α] [Spelled α] [Fingerprinted α] [Steady α]

theorem substituteFactor_rename {m : Matching α} (hm : m.sampled = false) (hv : IsIdentifier v)
    {before after : List (Tree α)} (hbefore : ∀ f ∈ before, f.Over IsIdentifier)
    (hafter : ∀ f ∈ after, f.Over IsIdentifier) :
    substituteFactor m (σ.name v) (before.map (Tree.rename σ)) (after.map (Tree.rename σ)) =
      σ.outcome (Option.map (Tree.rename σ)) (substituteFactor m v before after) := by
  induction after generalizing before with
  | nil => rfl
  | cons factor after ih =>
    obtain ⟨hfactor, hrest⟩ := List.forall_mem_cons.mp hafter
    have hnext : substituteFactor m (σ.name v)
        (before.map (Tree.rename σ) ++ [factor.rename σ]) (after.map (Tree.rename σ)) =
          σ.outcome (Option.map (Tree.rename σ))
            (substituteFactor m v (before ++ [factor]) after) := by
      rw [← ih (List.forall_mem_append.mpr ⟨hbefore, by simpa using hfactor⟩) hrest,
        List.map_append]
      rfl
    cases factor with
    | unary op u =>
      have hu : u.Over IsIdentifier := hfactor
      rw [List.map_cons, Tree.rename, substituteFactor, substituteFactor,
        outerAntiderivative?_rename]
      cases hg : outerAntiderivative? op u with
      | none => exact hnext
      | some g =>
        simp only [Option.map_some, Tree.mentions_rename hu hv]
        split
        · rw [← List.map_append, cofactor_rename]
          cases hc : cofactor (before ++ after) with
          | error e => rfl
          | ok c =>
            have hover : c.Over IsIdentifier :=
              over_cofactor (List.forall_mem_append.mpr ⟨hbefore, hrest⟩) hc
            simp only [Renaming.outcome, Matching.ratio?_rename hm hover hu hv]
            cases m.ratio? c u v with
            | none => exact hnext
            | some k =>
              simp only [scaledBy_rename]
              cases scaledBy k g <;> rfl
        · exact hnext
    | _ => exact hnext

/-- **Renamed plans**: every strategy makes the renamed plan for the renamed
integrand. -/
theorem renamed_plan {s : Strategy α} (hs : ∀ m, s = .substitution m → m.sampled = false)
    (ht : t.Over IsIdentifier) (hv : IsIdentifier v) :
    Renamed σ (s.plan v t) (s.plan (σ.name v) (t.rename σ)) := by
  cases s with
  | powerRule => exact renamed_powerRulePlan ht hv
  | basicTrig => exact renamed_basicTrigPlan ht hv
  | exponential => exact renamed_exponentialPlan ht hv
  | constantMultiple => exact renamed_constantMultiplePlan ht hv
  | substitution m =>
    have hempty : ∀ f ∈ ([] : List (Tree α)), f.Over IsIdentifier := by simp
    refine Plan.renamed_ofExcept ?_
    rw [Tree.factors_rename]
    exact substituteFactor_rename (hs m rfl) hv hempty (Tree.over_factors ht)
  | byParts => exact renamed_byPartsPlan ht hv
  | sumDifference => exact renamed_sumDifferencePlan ht

end Strategy

/-! ## Whole runs -/

namespace Pipeline

variable [Numeral α] [Spelled α] [Fingerprinted α] [Steady α] {p : Pipeline α} {t : Tree α}

theorem claim_rename {sub sub' : Tree α → Except (Fault α) (Tree α)}
    (hsub : ∀ u, u.Over IsIdentifier → sub' (u.rename σ) = σ.outcome (Tree.rename σ) (sub u))
    (hover : ∀ {u w}, u.Over IsIdentifier → sub u = .ok w → w.Over IsIdentifier)
    (ht : t.Over IsIdentifier) (hv : IsIdentifier v) {ss : List (Strategy α)}
    (hss : ∀ m, .substitution m ∈ ss → m.sampled = false) :
    claim sub' (σ.name v) (t.rename σ) ss =
      σ.outcome (Option.map fun r => (r.1, r.2.rename σ)) (claim sub v t ss) := by
  induction ss with
  | nil => rfl
  | cons s rest ih =>
    have hs : ∀ m, s = .substitution m → m.sampled = false := by
      rintro m rfl
      exact hss m List.mem_cons_self
    have hrun := (Strategy.renamed_plan (σ := σ) hs ht hv).run hsub hover
    rw [claim, claim, hrun]
    rcases (s.plan v t).run sub with e | _ | w
    · rfl
    · exact ih fun m hm => hss m (List.mem_cons_of_mem s hm)
    · rfl

theorem run_rename (hp : ∀ m, .substitution m ∈ p.strategies → m.sampled = false)
    (hv : IsIdentifier v) (n : Nat) (ht : t.Over IsIdentifier) :
    p.run (σ.name v) n (t.rename σ) = σ.outcome (Tree.rename σ) (p.run v n t) := by
  induction n generalizing t with
  | zero => rfl
  | succ n ih =>
    rw [run, run, claim_rename (fun u hu => ih hu) (fun hu hw => over_of_run hv hu hw) ht hv hp]
    rcases claim (p.run v n) v t p.strategies with e | _ | r <;> rfl

/-- **Integration does not depend on names.** For a renaming of identifiers
that keeps different ones different, the outcome for the renamed tree and
variable is the renamed outcome, the same antiderivative or the same fault;
in particular the renamed tree is refused exactly when the tree is. -/
theorem integrate_rename (p : Pipeline α)
    (hp : ∀ m, .substitution m ∈ p.strategies → m.sampled = false) (t : Tree α)
    (ht : t.AllFinite) (hnames : ∀ x ∈ t.names, IsIdentifier x) (v : String) (hv : IsIdentifier v)
    (σ : Renaming) :
    p.integrate (t.rename σ) (σ.name v) = σ.outcome (Tree.rename σ) (p.integrate t v) ∧
      ((∃ e, p.integrate (t.rename σ) (σ.name v) = .error e ∧ e.refuses = true) ↔
        ∃ e, p.integrate t v = .error e ∧ e.refuses = true) := by
  have hrun : p.integrate (t.rename σ) (σ.name v) = σ.outcome (Tree.rename σ) (p.integrate t v) :=
    run_rename hp hv p.maxDepth (Tree.over_iff.mpr ⟨ht, hnames⟩)
  refine ⟨hrun, ?_⟩
  rw [hrun]
  cases p.integrate t v with
  | ok F => simp [Renaming.outcome]
  | error e => simp [Renaming.outcome, Fault.refuses_rename]

/-- Two names exchanged. -/
def exchange {a b : String} (ha : IsIdentifier a) (hb : IsIdentifier b) : Renaming where
  name := Equiv.swap a b
  isIdentifier {x} hx := by
    rw [Equiv.swap_apply_def]
    split
    · exact hb
    split
    · exact ha
    · exact hx
  injective _ _ h := (Equiv.swap a b).injective h

/-- `(6 * x) * cos (x ^ 2)`, in double precision. -/
def timesCosSquare : Tree Float :=
  .binary .mul (.binary .mul (.const 6) (.var "x"))
    (.unary .cos (.binary .pow (.var "x") (.const 2)))

/-- With the variable called `sin`, `timesCosSquare` is integrated by
substitution as it is with `x`. -/
theorem integrate_rename_timesCosSquare :
    timesCosSquare.AllFinite ∧ (∀ x ∈ timesCosSquare.names, IsIdentifier x) ∧
      (standard : Pipeline Float).integrate
        (.binary .mul (.binary .mul (.const 6) (.var "sin"))
          (.unary .cos (.binary .pow (.var "sin") (.const 2)))) "sin" =
        .ok (.binary .mul (.const 3) (.unary .sin (.binary .pow (.var "sin") (.const 2)))) := by
  have hfinite : timesCosSquare.AllFinite := ⟨⟨rfl, trivial⟩, trivial, rfl⟩
  have hnames : ∀ x ∈ timesCosSquare.names, IsIdentifier x := by decide
  have hp : ∀ m, .substitution m ∈ (standard : Pipeline Float).strategies → m.sampled = false := by
    intro m hm
    obtain rfl : m = .standard := by simpa [standard, Strategy.standard] using hm
    rfl
  refine ⟨hfinite, hnames, ?_⟩
  exact (integrate_rename standard hp timesCosSquare hfinite hnames "x" (by decide)
    (exchange (a := "x") (b := "sin") (by decide) (by decide))).1

end Pipeline

end Fluxion
