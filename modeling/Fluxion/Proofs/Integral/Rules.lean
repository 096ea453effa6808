/-
The rules of integration: what each strategy can find, as an inductive
relation. A rule names the shape of the integrand, what was asked of it,
the sub-integrals that were found and the antiderivative built from them.

`finds_of_run` is the one place where the plans of the strategies are
taken apart. What holds of every antiderivative is proved of the rules,
one case for each.
-/
import Fluxion.Integral.Pipeline
import Fluxion.Proofs.Fault

namespace Fluxion

variable {α : Type} [Scalar α]

/-! ## Carrying out a plan -/

namespace Plan

variable {sub : Tree α → Except (Fault α) (Tree α)} {t F : Tree α}

omit [Scalar α] in
@[simp] theorem run_ofExcept (x : Except (Fault α) (Option (Tree α))) :
    (ofExcept x).run sub = x := by
  rcases x with e | _ | t <;> rfl

omit [Scalar α] in
/-- A sub-integral is found, or the plan goes on without it. -/
theorem run_ask {u : Tree α} {next : Option (Tree α) → Plan α}
    (h : (ask u next).run sub = .ok (some F)) :
    (∃ w, sub u = .ok w ∧ (next (some w)).run sub = .ok (some F)) ∨
      (next none).run sub = .ok (some F) := by
  rw [run] at h
  split at h
  · next w hw => exact .inl ⟨w, hw, h⟩
  · split at h
    · exact .inr h
    · cases h

omit [Scalar α] in
theorem run_build {u : Tree α} {f : Tree α → Tree α} (h : (build u f).run sub = .ok (some F)) :
    ∃ w, sub u = .ok w ∧ f w = F := by
  rcases run_ask h with ⟨w, hw, h⟩ | h
  · exact ⟨w, hw, Option.some.inj (Except.ok.inj h)⟩
  · cases h

end Plan

/-! ## The rules -/

/-- `v ^ a / a` for a literal `a`. -/
def powerQuotient (v : String) (a : α) : Tree α :=
  .binary .div (.binary .pow (.var v) (.const a)) (.const a)

namespace Strategy

variable [Numeral α]

/-- The strategy can find `F` for the integrand `t` when sub-integrals are
found by `sub`. -/
inductive Finds (sub : Tree α → Except (Fault α) (Tree α)) (v : String) :
    Strategy α → Tree α → Tree α → Prop
  | identity : Finds sub v .powerRule (.var v) (powerQuotient v Scalar.two)
  | lnPower {e n} (he : e.mentions v = false) (hn : e.constantValue? = some n)
      (h : Scalar.eq n (Scalar.neg Scalar.one) = true) :
      Finds sub v .powerRule (.binary .pow (.var v) e) (.unary .ln (.var v))
  | power {e n} (he : e.mentions v = false) (hn : e.constantValue? = some n)
      (hfin : Scalar.isFinite (Scalar.add n Scalar.one) = true) :
      Finds sub v .powerRule (.binary .pow (.var v) e) (powerQuotient v (Scalar.add n Scalar.one))
  | constant {c} (hc : c.mentions v = false) :
      Finds sub v .powerRule c (.binary .mul c (.var v))
  | leftFactor {s c u w} (hc : c.mentions v = false) (hw : sub u = .ok w) :
      Finds sub v s (.binary .mul c u) (.binary .mul c w)
  | rightFactor {s c u w} (hc : c.mentions v = false) (hw : sub u = .ok w) :
      Finds sub v s (.binary .mul u c) (.binary .mul c w)
  | ln {c} (hc : c.mentions v = false) :
      Finds sub v .powerRule (.binary .div c (.var v)) (logTerm v c)
  | lnFirstPower {c e n} (hc : c.mentions v = false) (he : e.mentions v = false)
      (hn : e.constantValue? = some n) (h : Scalar.eq n Scalar.one = true) :
      Finds sub v .powerRule (.binary .div c (.binary .pow (.var v) e)) (logTerm v c)
  | reciprocal {c e n} (hc : c.mentions v = false) (he : e.mentions v = false)
      (hn : e.constantValue? = some n)
      (hfin : Scalar.isFinite (Scalar.sub Scalar.one n) = true) :
      Finds sub v .powerRule (.binary .div c (.binary .pow (.var v) e))
        (if c.eq Tree.one then powerQuotient v (Scalar.sub Scalar.one n)
          else .binary .mul c (powerQuotient v (Scalar.sub Scalar.one n)))
  | sin : Finds sub v .basicTrig (.unary .sin (.var v)) (.unary .neg (.unary .cos (.var v)))
  | cos : Finds sub v .basicTrig (.unary .cos (.var v)) (.unary .sin (.var v))
  | tan {e} (he : e.eq Tree.two = true) :
      Finds sub v .basicTrig (.binary .pow (.unary .sec (.var v)) e) (.unary .tan (.var v))
  | cot {e} (he : e.eq Tree.two = true) :
      Finds sub v .basicTrig (.binary .pow (.unary .csc (.var v)) e)
        (.unary .neg (.unary .cot (.var v)))
  | exp : Finds sub v .exponential (.unary .exp (.var v)) (.unary .exp (.var v))
  | onePower {b a} (hb : b.mentions v = false) (ha : b.constantValue? = some a)
      (h : Scalar.eq a Scalar.one = true) :
      Finds sub v .exponential (.binary .pow b (.var v)) (.var v)
  | exponential {b} (hb : b.mentions v = false) :
      Finds sub v .exponential (.binary .pow b (.var v))
        (.binary .div (.binary .pow b (.var v)) (.unary .ln b))
  | neg {u w} (hw : sub u = .ok w) :
      Finds sub v .constantMultiple (.unary .neg u) (.unary .neg w)
  | divisor {u c w} (hc : c.mentions v = false) (hw : sub u = .ok w) :
      Finds sub v .constantMultiple (.binary .div u c) (.binary .div w c)
  | substitution {m t before op u after g c k F}
      (hfactors : t.factors = before ++ .unary op u :: after)
      (hg : outerAntiderivative? op u = some g) (hc : cofactor (before ++ after) = .ok c)
      (hk : m.ratio? c u v = some k) (hF : scaledBy k g = .ok F) :
      Finds sub v (.substitution m) t F
  | parts {u dv w rest s t} (ht : t = .binary .mul u dv ∨ t = .binary .mul dv u)
      (hw : sub dv = .ok w)
      (hrest : Tree.regroup [w, (u.derivative v).simplify] = .ok rest) (hs : sub rest = .ok s) :
      Finds sub v .byParts t (.binary .sub (.binary .mul u w) s)
  | sum {l r a b} (ha : sub l = .ok a) (hb : sub r = .ok b) :
      Finds sub v .sumDifference (.binary .add l r) (.binary .add a b)
  | difference {l r a b} (ha : sub l = .ok a) (hb : sub r = .ok b) :
      Finds sub v .sumDifference (.binary .sub l r) (.binary .sub a b)

/-! ## What the plans do -/

section Plans

variable {sub : Tree α → Except (Fault α) (Tree α)} {v : String} {t F : Tree α}

omit [Scalar α] [Numeral α] in
theorem eq_var_of_isVariable {t : Tree α} (h : t.isVariable v = true) : t = .var v := by
  cases t <;> simp only [Tree.isVariable, Bool.false_eq_true, beq_iff_eq] at h
  rw [h]

omit [Scalar α] [Numeral α] in
theorem eq_unary_of_isFunctionOf {op : UnaryOp} {t : Tree α} (h : t.isFunctionOf op v = true) :
    t = .unary op (.var v) := by
  cases t <;> simp only [Tree.isFunctionOf, Bool.false_eq_true, Bool.and_eq_true, beq_iff_eq] at h
  rw [h.1, eq_var_of_isVariable h.2]

omit [Scalar α] [Numeral α] in
theorem eq_pow_of_isPowerOf {t : Tree α} (h : t.isPowerOf v = true) :
    ∃ e, t = .binary .pow (.var v) e ∧ e.mentions v = false := by
  unfold Tree.isPowerOf at h
  split at h
  · next b e =>
    rw [Bool.and_eq_true, Bool.not_eq_true'] at h
    exact ⟨e, by rw [eq_var_of_isVariable h.1], h.2⟩
  · cases h

omit [Numeral α] in
theorem raisedPower_eq_ok {n : α} (h : raisedPower v n = .ok t) :
    Scalar.isFinite n = true ∧ t = powerQuotient v n := by
  obtain ⟨k, hk, rfl⟩ := map_eq_ok.mp h
  obtain ⟨hn, rfl⟩ := Tree.literal_eq_ok.mp hk
  exact ⟨hn, rfl⟩

theorem finds_ofPower {e : Tree α} {n : α} (he : e.mentions v = false)
    (hn : e.constantValue? = some n) (h : (ofPower v n).run sub = .ok (some F)) :
    Finds sub v .powerRule (.binary .pow (.var v) e) F := by
  unfold ofPower at h
  split at h
  · next h₁ => cases h; exact .lnPower he hn h₁
  · rw [Plan.run_ofExcept] at h
    obtain ⟨T, hT, hF⟩ := map_eq_ok.mp h
    obtain ⟨hfin, rfl⟩ := raisedPower_eq_ok hT
    cases hF; exact .power he hn hfin

theorem finds_reciprocal {c d : Tree α} (hc : c.mentions v = false)
    (h : (reciprocal v c d).run sub = .ok (some F)) :
    Finds sub v .powerRule (.binary .div c d) F := by
  unfold reciprocal at h
  split at h
  · next hd => cases h; rw [eq_var_of_isVariable hd]; exact .ln hc
  split at h
  · next hd =>
    obtain ⟨e, rfl, he⟩ := eq_pow_of_isPowerOf hd
    dsimp only at h
    split at h
    · cases h
    · next n hn =>
      split at h
      · next h₁ => cases h; exact .lnFirstPower hc he hn h₁
      · rw [Plan.run_ofExcept] at h
        obtain ⟨T, hT, hF⟩ := map_eq_ok.mp h
        obtain ⟨hfin, rfl⟩ := raisedPower_eq_ok hT
        cases hF; exact .reciprocal hc he hn hfin
  · cases h

theorem finds_powerRest (h : (powerRest v t).run sub = .ok (some F)) :
    Finds sub v .powerRule t F := by
  unfold powerRest at h
  split at h
  · next ht => cases h; exact .constant (by simpa using ht)
  split at h
  · next l r =>
    split at h
    · next hl =>
      obtain ⟨w, hw, rfl⟩ := Plan.run_build h
      exact .leftFactor (by simpa using hl) hw
    split at h
    · next hr =>
      obtain ⟨w, hw, rfl⟩ := Plan.run_build h
      exact .rightFactor (by simpa using hr) hw
    · cases h
  · next c d =>
    split at h
    · next hc => exact finds_reciprocal (by simpa using hc) h
    · cases h
  · cases h

theorem finds_powerRulePlan (h : (powerRulePlan v t).run sub = .ok (some F)) :
    Finds sub v .powerRule t F := by
  unfold powerRulePlan at h
  split at h
  · next ht => cases h; rw [eq_var_of_isVariable ht]; exact .identity
  split at h
  · next ht =>
    obtain ⟨e, rfl, he⟩ := eq_pow_of_isPowerOf ht
    dsimp only at h
    split at h
    · next n hn => exact finds_ofPower he hn h
    · exact finds_powerRest h
  · exact finds_powerRest h

omit [Numeral α] in
theorem eq_squared_of_isSquaredFunctionOf {op : UnaryOp}
    (h : t.isSquaredFunctionOf op v = true) :
    ∃ e, t = .binary .pow (.unary op (.var v)) e ∧ e.eq Tree.two = true := by
  unfold Tree.isSquaredFunctionOf at h
  split at h
  · next b e =>
    rw [Bool.and_eq_true] at h
    exact ⟨e, by rw [eq_unary_of_isFunctionOf h.2], h.1⟩
  · cases h

theorem finds_basicTrigPlan (h : (basicTrigPlan v t).run sub = .ok (some F)) :
    Finds sub v .basicTrig t F := by
  unfold basicTrigPlan at h
  split at h
  · next ht => cases h; rw [eq_unary_of_isFunctionOf ht]; exact .sin
  split at h
  · next ht => cases h; rw [eq_unary_of_isFunctionOf ht]; exact .cos
  split at h
  · next ht =>
    obtain ⟨e, rfl, he⟩ := eq_squared_of_isSquaredFunctionOf ht
    cases h; exact .tan he
  split at h
  · next ht =>
    obtain ⟨e, rfl, he⟩ := eq_squared_of_isSquaredFunctionOf ht
    cases h; exact .cot he
  · cases h

theorem finds_exponentialPlan (h : (exponentialPlan v t).run sub = .ok (some F)) :
    Finds sub v .exponential t F := by
  unfold exponentialPlan at h
  split at h
  · next ht => cases h; rw [eq_unary_of_isFunctionOf ht]; exact .exp
  split at h
  · next b e =>
    split at h
    · next hbe =>
      rw [Bool.and_eq_true, Bool.not_eq_true'] at hbe
      rw [eq_var_of_isVariable hbe.1] at h ⊢
      split at h
      · next a ha =>
        split at h
        · next h₁ => cases h; exact .onePower hbe.2 ha h₁
        split at h
        · cases h
        · cases h; exact .exponential hbe.2
      · cases h; exact .exponential hbe.2
    · cases h
  · cases h

theorem finds_constantMultiplePlan (h : (constantMultiplePlan v t).run sub = .ok (some F)) :
    Finds sub v .constantMultiple t F := by
  unfold constantMultiplePlan at h
  split at h
  · obtain ⟨w, hw, rfl⟩ := Plan.run_build h
    exact .neg hw
  · split at h
    · next hl =>
      rw [Bool.and_eq_true, Bool.not_eq_true'] at hl
      obtain ⟨w, hw, rfl⟩ := Plan.run_build h
      exact .leftFactor hl.1 hw
    split at h
    · next hr =>
      rw [Bool.and_eq_true, Bool.not_eq_true'] at hr
      obtain ⟨w, hw, rfl⟩ := Plan.run_build h
      exact .rightFactor hr.2 hw
    · cases h
  · split at h
    · next hr =>
      obtain ⟨w, hw, rfl⟩ := Plan.run_build h
      exact .divisor (by simpa using hr) hw
    · cases h
  · cases h

theorem finds_substituteFactor {m : Matching α} {before fs : List (Tree α)}
    (ht : t.factors = before ++ fs) (h : substituteFactor m v before fs = .ok (some F)) :
    Finds sub v (.substitution m) t F := by
  induction fs generalizing before with
  | nil => cases h
  | cons factor after ih =>
    have next (h : substituteFactor m v (before ++ [factor]) after = .ok (some F)) :
        Finds sub v (.substitution m) t F :=
      ih (by rw [ht, List.append_assoc, List.singleton_append]) h
    unfold substituteFactor at h
    split at h
    · next op u =>
      split at h
      · next g hg =>
        split at h
        · split at h
          · cases h
          · next c hc =>
            split at h
            · next k hk =>
              obtain ⟨T, hT, hF⟩ := map_eq_ok.mp h
              cases hF
              exact .substitution ht hg hc hk hT
            · exact next h
        · exact next h
      · exact next h
    · exact next h

theorem finds_partsPlan {u dv : Tree α} {otherwise : Plan α}
    (ht : t = .binary .mul u dv ∨ t = .binary .mul dv u)
    (h : (partsPlan v u dv otherwise).run sub = .ok (some F)) :
    Finds sub v .byParts t F ∨ otherwise.run sub = .ok (some F) := by
  unfold partsPlan at h
  split at h
  · rcases Plan.run_ask h with ⟨w, hw, h⟩ | h
    · dsimp only at h
      split at h
      · cases h
      · next rest hrest =>
        rcases Plan.run_ask h with ⟨s, hs, h⟩ | h
        · cases h; exact .inl (.parts ht hw hrest hs)
        · exact .inr h
    · exact .inr h
  · exact .inr h

theorem finds_byPartsPlan (h : (byPartsPlan v t).run sub = .ok (some F)) :
    Finds sub v .byParts t F := by
  unfold byPartsPlan at h
  split at h
  · rcases finds_partsPlan (.inl rfl) h with h | h
    · exact h
    rcases finds_partsPlan (.inr rfl) h with h | h
    · exact h
    · cases h
  · cases h

omit [Scalar α] [Numeral α] in
theorem run_termwise {op : BinaryOp} {l r : Tree α} (h : (termwise op l r).run sub = .ok (some F)) :
    ∃ a b, sub l = .ok a ∧ sub r = .ok b ∧ F = .binary op a b := by
  rcases Plan.run_ask h with ⟨a, ha, h⟩ | h
  · obtain ⟨b, hb, rfl⟩ := Plan.run_build h
    exact ⟨a, b, ha, hb, rfl⟩
  · cases h

theorem finds_sumDifferencePlan (h : (sumDifferencePlan t).run sub = .ok (some F)) :
    Finds sub v .sumDifference t F := by
  unfold sumDifferencePlan at h
  split at h
  · obtain ⟨a, b, ha, hb, rfl⟩ := run_termwise h
    exact .sum ha hb
  · obtain ⟨a, b, ha, hb, rfl⟩ := run_termwise h
    exact .difference ha hb
  · cases h

/-- What a plan finds, it finds by a rule of its strategy. -/
theorem finds_of_run {s : Strategy α} (h : (s.plan v t).run sub = .ok (some F)) :
    Finds sub v s t F := by
  cases s with
  | powerRule => exact finds_powerRulePlan h
  | basicTrig => exact finds_basicTrigPlan h
  | exponential => exact finds_exponentialPlan h
  | constantMultiple => exact finds_constantMultiplePlan h
  | substitution m =>
    rw [plan, substitutionPlan, Plan.run_ofExcept] at h
    exact finds_substituteFactor rfl h
  | byParts => exact finds_byPartsPlan h
  | sumDifference => exact finds_sumDifferencePlan h

end Plans

end Strategy

/-! ## Pipelines -/

namespace Pipeline

variable [Numeral α] {p : Pipeline α} {v : String} {t F : Tree α}

theorem claim_eq_some {sub : Tree α → Except (Fault α) (Tree α)} {ss : List (Strategy α)}
    {s : Strategy α} (h : claim sub v t ss = .ok (some (s, F))) : s ∈ ss ∧ s.Finds sub v t F := by
  induction ss with
  | nil => cases h
  | cons r rest ih =>
    rw [claim] at h
    split at h
    · cases h
    · next G hG =>
      cases h
      exact ⟨List.mem_cons_self, Strategy.finds_of_run hG⟩
    · exact (ih h).imp_left (List.mem_cons_of_mem r)

/-- An antiderivative is found by one of the strategies, with the
sub-integrals found one level deeper. -/
theorem finds_of_run {n : Nat} (h : p.run v n t = .ok F) :
    ∃ m s, n = m + 1 ∧ s ∈ p.strategies ∧ s.Finds (p.run v m) v t F := by
  cases n with
  | zero => cases h
  | succ n =>
    rw [run] at h
    split at h
    · cases h
    · next r hr =>
      obtain ⟨s, G⟩ := r
      cases h
      obtain ⟨hs, hf⟩ := claim_eq_some hr
      exact ⟨n, s, rfl, hs, hf⟩
    · cases h

end Pipeline

end Fluxion
