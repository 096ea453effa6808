/-
Integration by parts reaches every degree that the levels allow: `v ^ n`
times sine, cosine or exponential of `v` is integrated with `2 * n + 1`
levels or more, whichever factor stands first (`integrate_mul_monomial`).

What a step leaves to be integrated is the antiderivative of the function
times the derivative of the power, regrouped. The three functions have one
another as antiderivatives, up to a sign, and the derivative is a counted
literal times the next lower power; so that is a product of the same kind
behind a literal or a sign (`exists_regroup`). A step takes one level for
itself and one for what stands in front.

Substitution is tried before, and may come in first. All that has to be
known of it is that it does not fail.
-/
import Fluxion.Proofs.Double.Natural
import Fluxion.Proofs.Integral.Sound
import Fluxion.Proofs.Integral.Table
import Fluxion.Proofs.Integral.Termination

namespace Fluxion

variable {α : Type} [Scalar α]

namespace Tree

variable {v : String} {m n : Nat} {P Q d f G : Tree α} {s : α}

/-! ## Powers -/

/-- `v ^ n`; if `n` is one, also `v` itself. -/
inductive Monomial (v : String) : Nat → Tree α → Prop
  | var : Monomial v 1 (.var v)
  | power {n : Nat} (h₀ : 0 < n) (hn : n < 2 ^ 53) :
      Monomial v n (.binary .pow (.var v) (.const (Scalar.ofNat n)))

theorem Monomial.pos (h : Monomial v n P) : 0 < n := by
  cases h with
  | var => exact Nat.one_pos
  | power h₀ hn => exact h₀

theorem Monomial.mentions (h : Monomial v n P) : P.mentions v = true := by
  cases h <;> simp [Tree.mentions]

theorem Monomial.residues (h : Monomial v n P) : Tree.residues [P] = [P] := by
  cases h <;> rfl

theorem Monomial.collect (h : Monomial v n P) : Tree.collect [P] = (Scalar.one, [P]) := by
  cases h <;> rfl

theorem Monomial.peel (h : Monomial v n P) : P.peel = (Scalar.one, some P) := by
  cases h <;> rfl

variable [Counting α]

theorem Monomial.isPolynomialLike (h : Monomial v n P) : P.isPolynomialLike v = true := by
  cases h with
  | var => simp [Tree.isPolynomialLike]
  | power h₀ hn =>
    simp [Tree.isPolynomialLike, isVariable, Counting.gt_zero h₀ hn, Counting.isInteger_ofNat hn]

theorem simplify_power_zero :
    simplifyBinary .pow (.var v) (.const (Scalar.ofNat 0)) = (one : Tree α) := by
  simp [simplifyBinary, combine, Tree.power, isLiteral, Counting.eq_ofNat]

theorem simplify_power (h₀ : 0 < n) (hn : n < 2 ^ 53) :
    Monomial v n (simplifyBinary .pow (.var v) (.const (Scalar.ofNat n : α))) := by
  by_cases h₁ : n = 1
  · subst h₁
    have hvar : simplifyBinary .pow (.var v) (.const (Scalar.ofNat 1 : α)) = .var v := by
      simp [simplifyBinary, combine, Tree.power, isLiteral, Counting.eq_ofNat]
    rw [hvar]
    exact .var
  · have hpow : simplifyBinary .pow (.var v) (.const (Scalar.ofNat n : α)) =
        .binary .pow (.var v) (.const (Scalar.ofNat n)) := by
      simp [simplifyBinary, combine, Tree.power, isLiteral,
        Counting.eq_ofNat_of_ne (α := α) hn (by decide : 0 < 2 ^ 53) h₀.ne',
        Counting.eq_ofNat_of_ne (α := α) hn (by decide : 1 < 2 ^ 53) h₁]
    rw [hpow]
    exact .power h₀ hn

theorem Monomial.simplify (h : Monomial v n P) : Monomial v n P.simplify := by
  cases h with
  | var => exact .var
  | power h₀ hn => exact simplify_power h₀ hn

theorem Monomial.over {R : String → Prop} (h : Monomial v n P) (hv : R v) : P.Over R := by
  cases h with
  | var => exact hv
  | power h₀ hn => exact ⟨hv, Counting.isFinite_ofNat hn⟩

/-! ## The derivative of a power -/

/-- The derivative of `v ^ (n + 1)`, simplified. -/
inductive Lowered (v : String) : Nat → Tree α → Prop
  | one : Lowered v 0 one
  | scaled {n : Nat} {Q : Tree α} (hn : n + 1 < 2 ^ 53) (hQ : Monomial v n Q) :
      Lowered v n (.binary .mul (.const (Scalar.ofNat (n + 1))) Q)

theorem simplify_one_mul_one : simplifyBinary .mul one one = (one : Tree α) := by
  have hmul : Scalar.mul Scalar.one (Scalar.one : α) = Scalar.one := Counting.one_mul (by decide)
  have hfold : foldBinary .mul Scalar.one (Scalar.one : α) = some Scalar.one := by
    change Scalar.finite? (Scalar.mul Scalar.one Scalar.one) = some Scalar.one
    rw [hmul, Scalar.finite?, if_pos Steady.isFinite_one]
  simp only [simplifyBinary, one, hfold]

/-- A counted literal above one stays in front. -/
theorem simplify_scale (hQ : Monomial v n Q) (hm : 1 < m) (hm' : m < 2 ^ 53) :
    simplifyBinary .mul (.const (Scalar.ofNat m)) Q = .binary .mul (.const (Scalar.ofNat m)) Q := by
  have hzero : Scalar.eq (Scalar.ofNat m : α) Scalar.zero = false :=
    Counting.eq_ofNat_of_ne hm' (by decide) (by omega)
  have hone : Scalar.eq (Scalar.ofNat m : α) Scalar.one = false :=
    Counting.eq_ofNat_of_ne hm' (by decide) (by omega)
  cases hQ <;>
    simp [simplifyBinary, combine, product, scale, hzero, hone, Counting.eq_neg_one hm']

theorem simplify_mul_one (a : α) :
    simplifyBinary .mul (.binary .mul (.const a) Q) one = .binary .mul (.const a) Q := by
  simp [simplifyBinary, combine, product, one, scale, Counting.one_ne_zero, Counting.one_eq_one]

theorem Monomial.derivative (h : Monomial v (n + 1) P) :
    Lowered v n (P.derivative v).simplify := by
  cases h with
  | var =>
    have hone : ((Tree.var v : Tree α).derivative v).simplify = one := by
      simp [Tree.derivative, Tree.simplify, Tree.one]
    rw [hone]
    exact .one
  | power h₀ hn =>
    rw [derivative_power, Counting.sub_one hn]
    simp only [Tree.simplify, one]
    rw [← one]
    cases n with
    | zero =>
      have hone : simplifyBinary .mul (.const (Scalar.ofNat (0 + 1) : α)) one = one :=
        simplify_one_mul_one
      rw [simplify_power_zero, hone, simplify_one_mul_one]
      exact .one
    | succ n =>
      have hQ : Monomial v (n + 1)
          (simplifyBinary .pow (.var v) (.const (Scalar.ofNat (n + 1) : α))) :=
        simplify_power (Nat.succ_pos n) (by omega)
      rw [simplify_scale hQ (by omega) hn, simplify_mul_one]
      exact .scaled hn hQ

/-! ## What is left -/

omit [Counting α] in
theorem Lowered.lt (h : Lowered v n d) : n + 1 < 2 ^ 53 := by
  cases h with
  | one => decide
  | scaled hn hQ => exact hn

omit [Counting α] in
theorem Lowered.foldl_absorb (h : Lowered v n d) (fs : List (Tree α)) :
    (d.factors.foldl absorb (s, fs)).1 = Scalar.mul s (Scalar.ofNat (n + 1)) := by
  cases h with
  | one => rfl
  | scaled hn hQ => cases hQ <;> rfl

omit [Counting α] in
/-- Nothing stays beside it, or a power of lower degree. -/
theorem Lowered.residues (h : Lowered v n d) :
    Tree.residues [d] = [] ∨ ∃ Q, Monomial v n Q ∧ Tree.residues [d] = [Q] := by
  cases h with
  | one => exact .inl rfl
  | scaled hn hQ =>
    refine .inr ⟨_, hQ, ?_⟩
    rw [residues_mul, hQ.residues]
    rfl

omit [Counting α] in
/-- A sign in front of a function goes into the coefficient. -/
theorem collect_function {op : UnaryOp} (hop : op ≠ .neg) {u : Tree α}
    (hG : G = .unary op u ∨ G = .unary .neg (.unary op u)) :
    ∃ s, (s = Scalar.one ∨ s = Scalar.neg Scalar.one) ∧
      collect [G, d] = d.factors.foldl absorb (s, [.unary op u]) := by
  have hstrip (c : α) : stripSigns c (.unary op u) = (c, .unary op u) := by
    cases op <;> first | rfl | exact absurd rfl hop
  rcases hG with rfl | rfl
  · exact ⟨_, .inl rfl, by simp [collect, factors, absorb, hstrip]⟩
  · exact ⟨_, .inr rfl, by simp [collect, factors, absorb, stripSigns, hstrip]⟩

theorem isFinite_collect {op : UnaryOp} (hop : op ≠ .neg) {u : Tree α}
    (hG : G = .unary op u ∨ G = .unary .neg (.unary op u)) (hd : Lowered v n d) :
    Scalar.isFinite (collect [G, d]).1 = true := by
  have hfin : Scalar.isFinite (Scalar.ofNat (n + 1) : α) = true := Counting.isFinite_ofNat hd.lt
  obtain ⟨s, hs, hcollect⟩ := collect_function (d := d) hop hG
  rw [hcollect, hd.foldl_absorb]
  rcases hs with rfl | rfl
  · rw [Counting.one_mul hd.lt]
    exact hfin
  · rw [Counting.neg_one_mul hd.lt]
    exact Steady.isFinite_neg hfin

/-- **What a step leaves**: a literal, or the function with a literal or a
sign in front, or so the function times a power of lower degree. -/
theorem exists_regroup {op : UnaryOp} (hop : op ≠ .neg) {u : Tree α}
    (hG : G = .unary op u ∨ G = .unary .neg (.unary op u)) (hd : Lowered v n d) :
    ∃ x, regroup [G, d] = .ok x ∧
      ((∃ a, x = .const a) ∨ (Tree.unary op u).Led x ∨
        ∃ Q, Monomial v n Q ∧ (Tree.binary .mul (.unary op u) Q).Led x) := by
  have hparts : residues [G, d] = .unary op u :: residues [d] := by
    rw [residues_cons]
    rcases hG with rfl | rfl
    · rw [residues_function hop]; rfl
    · rw [residues_neg rfl, residues_function hop]; rfl
  cases hx : regroup [G, d] with
  | error e =>
    have hinfinite := (regroup_eq_error.mp hx).1
    rw [isFinite_collect hop hG hd] at hinfinite
    cases hinfinite
  | ok x =>
    refine ⟨x, rfl, (regroup_cases hparts hx).imp_right fun hled => ?_⟩
    rcases hd.residues with hnone | ⟨Q, hQ, hone⟩
    · rw [hnone] at hled
      exact .inl hled
    · rw [hone] at hled
      exact .inr ⟨Q, hQ, hled⟩

end Tree

/-! ## Substitution -/

namespace Strategy

variable [Numeral α] [Counting α] {v : String} {n : Nat} {P g : Tree α} {op : UnaryOp}

/-- A power has no ratio to the derivative of `v`, unless the texts agree. -/
theorem ratio_monomial (hP : Tree.Monomial v n P) :
    (Matching.standard : Matching α).ratio? P (.var v) v = some Scalar.one ∨
      (Matching.standard : Matching α).ratio? P (.var v) v = none := by
  cases hk : (Matching.standard : Matching α).ratio? P (.var v) v with
  | none => exact .inr rfl
  | some k =>
    have hvar : ((Tree.var v : Tree α).derivative v).simplify.peel.2 = none := by
      simp [Tree.derivative, Tree.simplify, Tree.one, Tree.peel]
    rcases Matching.ratio_cases rfl hk with ⟨-, rfl⟩ | ⟨-, hsame, -⟩
    · exact .inl rfl
    · rw [hP.simplify.peel, hvar] at hsame
      cases hsame

omit [Numeral α] in
theorem cofactor_monomial (hP : Tree.Monomial v n P) : cofactor [P] = .ok P := by
  rw [cofactor, if_neg (by simp), Tree.regroup, hP.collect, Tree.lead]
  simp [Counting.one_ne_zero, Counting.one_eq_one, Tree.chain]

/-- At a function of `v` beside a power the search for a factor ends or goes
on. -/
theorem substituteFactor_function (before after : List (Tree α))
    (hg : outerAntiderivative? op (.var v) = some g) (hP : Tree.Monomial v n P)
    (h : before ++ after = [P]) :
    substituteFactor .standard v before (.unary op (.var v) :: after) = .ok (some g) ∨
      substituteFactor .standard v before (.unary op (.var v) :: after) =
        substituteFactor .standard v (before ++ [.unary op (.var v)]) after := by
  rw [substituteFactor]
  simp only [hg, Tree.mentions, beq_self_eq_true, if_true, h, cofactor_monomial hP]
  rcases ratio_monomial hP with hone | hnone
  · rw [hone]
    exact .inl (by simp [scaledBy, Counting.one_eq_one, Except.map])
  · rw [hnone]
    exact .inr rfl

omit [Counting α] in
theorem substituteFactor_monomial (before after : List (Tree α)) (hP : Tree.Monomial v n P) :
    substituteFactor .standard v before (P :: after) =
      substituteFactor .standard v (before ++ [P]) after := by
  cases hP <;> rfl

/-- Sine, cosine and exponential: the functions that have one another as
antiderivatives, up to a sign. -/
inductive Cyclic : UnaryOp → Prop
  | sin : Cyclic .sin
  | cos : Cyclic .cos
  | exp : Cyclic .exp

theorem Cyclic.ne_neg (h : Cyclic op) : op ≠ .neg := by
  cases h <;> decide

omit [Scalar α] [Numeral α] [Counting α] in
theorem Cyclic.isIntegrableFactor (h : Cyclic op) :
    (Tree.unary op (.var v) : Tree α).isIntegrableFactor v = true := by
  cases h <;> simp [Tree.isIntegrableFactor, Tree.integrableFactors, Tree.mentions]

omit [Scalar α] [Numeral α] [Counting α] in
theorem Cyclic.exists_outer (h : Cyclic op) :
    ∃ g : Tree α, outerAntiderivative? op (.var v) = some g := by
  cases h <;> exact ⟨_, rfl⟩

/-- On a function times a power substitution does not fail. -/
theorem exists_substitution (hop : Cyclic op) (hP : Tree.Monomial v n P) :
    (∃ r, substituteFactor .standard v [] [P, .unary op (.var v)] = .ok r) ∧
      ∃ r, substituteFactor .standard v [] [.unary op (.var v), P] = .ok r := by
  obtain ⟨g, hg⟩ := hop.exists_outer (α := α) (v := v)
  constructor
  · rw [substituteFactor_monomial [] _ hP]
    rcases substituteFactor_function [P] [] hg hP rfl with h | h
    · exact ⟨_, h⟩
    · exact ⟨_, h⟩
  · rcases substituteFactor_function [] [P] hg hP rfl with h | h
    · exact ⟨_, h⟩
    · exact ⟨_, h.trans (substituteFactor_monomial _ [] hP)⟩

omit [Numeral α] [Counting α] in
theorem run_partsPlan {sub : Tree α → Except (Fault α) (Tree α)} {u dv w x F : Tree α}
    {otherwise : Plan α} (hu : u.isPolynomialLike v = true) (hdv : dv.isIntegrableFactor v = true)
    (hw : sub dv = .ok w) (hx : Tree.regroup [w, (u.derivative v).simplify] = .ok x)
    (hF : sub x = .ok F) :
    (partsPlan v u dv otherwise).run sub = .ok (some (.binary .sub (.binary .mul u w) F)) := by
  simp [partsPlan, hu, hdv, Plan.run, hw, hx, hF]

end Strategy

/-! ## Runs -/

namespace Pipeline

open Strategy

variable [Numeral α] {p : Pipeline α} {v : String} {D n k : Nat} {t x l r P F : Tree α}
  {op : UnaryOp}

/-- With `D` levels or more an antiderivative is found. -/
def Answers (p : Pipeline α) (v : String) (D : Nat) (t : Tree α) : Prop :=
  ∀ n, D ≤ n → ∃ F, p.run v n t = .ok F

theorem answers_succ (h : ∀ n, D ≤ n → ∃ F, p.run v (n + 1) t = .ok F) :
    p.Answers v (D + 1) t := by
  intro n hn
  obtain ⟨m, rfl⟩ : ∃ m, n = m + 1 := ⟨n - 1, by omega⟩
  exact h m (by omega)

section Steps

variable (hp : p.strategies = Strategy.standard)

include hp

/-- A literal or a sign in front takes one level. -/
theorem Answers.led (h : p.Answers v D t) (ht : t.mentions v = true) (hx : t.Led x) :
    p.Answers v (D + 1) x := by
  refine answers_succ fun n hn => ?_
  cases hx with
  | plain => exact h (n + 1) (by omega)
  | signed =>
    obtain ⟨F, hF⟩ := h n hn
    exact ⟨_, run_neg hp ht hF⟩
  | scaled c =>
    obtain ⟨F, hF⟩ := h n hn
    exact ⟨_, run_mul_left hp rfl ht hF⟩

theorem run_function (hop : Cyclic op) :
    ∃ G op', Cyclic op' ∧ p.run v (n + 1) (.unary op (.var v)) = .ok G ∧
      (G = .unary op' (.var v) ∨ G = .unary .neg (.unary op' (.var v))) := by
  cases hop with
  | sin => exact ⟨_, .cos, .cos, run_sin hp, .inr rfl⟩
  | cos => exact ⟨_, .sin, .sin, run_cos hp, .inl rfl⟩
  | exp => exact ⟨_, .exp, .exp, run_exp hp, .inl rfl⟩

theorem answers_function (hop : Cyclic op) : p.Answers v 1 (.unary op (.var v)) :=
  answers_succ fun n _ => by
    obtain ⟨G, op', -, hG, -⟩ := run_function (n := n) hp hop
    exact ⟨G, hG⟩

/-- A product of two trees that mention `v`, where integration by parts has
an answer and substitution does not fail. -/
theorem exists_run_mul (hl : l.mentions v = true) (hr : r.mentions v = true)
    (hsub : ∃ s, (substitutionPlan .standard v (.binary .mul l r)).run (p.run v n) = .ok s)
    (hparts : (byPartsPlan v (.binary .mul l r)).run (p.run v n) = .ok (some F)) :
    ∃ F, p.run v (n + 1) (.binary .mul l r) = .ok F := by
  have hpower := powerRulePlan_mul hl hr
  have htrig : basicTrigPlan v (.binary .mul l r) = .decline := basicTrigPlan_binary (by decide)
  have hexp : exponentialPlan v (.binary .mul l r) = .decline :=
    exponentialPlan_binary (by decide)
  have hconst := constantMultiplePlan_mul hl hr
  obtain ⟨s, hs⟩ := hsub
  cases s with
  | some G =>
    refine ⟨G, run_eq_ok [.powerRule, .basicTrig, .exponential, .constantMultiple]
      (.substitution .standard) hp ?_ hs⟩
    simp [plan, hpower, htrig, hexp, hconst, Plan.run]
  | none =>
    refine ⟨F, run_eq_ok [.powerRule, .basicTrig, .exponential, .constantMultiple,
      .substitution .standard] .byParts hp ?_ hparts⟩
    simp [plan, hpower, htrig, hexp, hconst, hs, Plan.run]

variable [Counting α]

/-! ### By parts -/

/-- What is left has an answer if the products with a power of lower degree
have one. -/
theorem answers_regroup {d G : Tree α} (hop : Cyclic op)
    (hG : G = .unary op (.var v) ∨ G = .unary .neg (.unary op (.var v)))
    (hd : Tree.Lowered v k d) (hD : 1 ≤ D)
    (h : ∀ Q, Tree.Monomial v k Q → p.Answers v D (.binary .mul (.unary op (.var v)) Q)) :
    ∃ x, Tree.regroup [G, d] = .ok x ∧ p.Answers v (D + 1) x := by
  obtain ⟨x, hx, ⟨a, rfl⟩ | hled | ⟨Q, hQ, hled⟩⟩ := Tree.exists_regroup hop.ne_neg hG hd
  · exact ⟨_, hx, answers_succ fun _ _ => ⟨_, run_of_not_mentions hp rfl⟩⟩
  · have hf : p.Answers v D (.unary op (.var v)) := fun n hn => answers_function hp hop n (by omega)
    exact ⟨x, hx, hf.led hp (by simp [Tree.mentions]) hled⟩
  · exact ⟨x, hx, (h Q hQ).led hp (by simp [Tree.mentions]) hled⟩

/-- One step: integration by parts of a power of degree `k + 1`. -/
theorem exists_run_partsPlan (hop : Cyclic op) (hP : Tree.Monomial v (k + 1) P) (hD : 1 ≤ D)
    (h : ∀ op' Q, Cyclic op' → Tree.Monomial v k Q →
      p.Answers v D (.binary .mul (.unary op' (.var v)) Q)) (hn : D + 1 ≤ n) (otherwise : Plan α) :
    ∃ F, (partsPlan v P (.unary op (.var v)) otherwise).run (p.run v n) = .ok (some F) := by
  obtain ⟨m, rfl⟩ : ∃ m, n = m + 1 := ⟨n - 1, by omega⟩
  obtain ⟨G, op', hop', hrun, hG⟩ := run_function (v := v) (n := m) hp hop
  obtain ⟨x, hx, hanswers⟩ := answers_regroup hp hop' hG hP.derivative hD fun Q => h op' Q hop'
  obtain ⟨F, hF⟩ := hanswers (m + 1) hn
  exact ⟨_, run_partsPlan hP.isPolynomialLike hop.isIntegrableFactor hrun hx hF⟩

/-- By induction on the degree: a step lowers it by one and takes two levels,
and what it leaves has the function on the left. -/
theorem answers_mul_monomial (hop : Cyclic op) (hP : Tree.Monomial v n P) :
    p.Answers v (2 * n + 1) (.binary .mul P (.unary op (.var v))) ∧
      p.Answers v (2 * n + 1) (.binary .mul (.unary op (.var v)) P) := by
  induction n generalizing op P with
  | zero => exact absurd hP.pos (Nat.lt_irrefl 0)
  | succ k ih =>
    have hstep (n : Nat) (hn : 2 * k + 2 ≤ n) (otherwise : Plan α) :=
      exists_run_partsPlan hp hop hP (D := 2 * k + 1) (by omega)
        (fun op' Q hop' hQ => (ih hop' hQ).2) hn otherwise
    have hf : (Tree.unary op (.var v) : Tree α).mentions v = true := by simp [Tree.mentions]
    obtain ⟨⟨s, hs⟩, s', hs'⟩ := exists_substitution hop hP
    have hfactors : (Tree.binary .mul P (.unary op (.var v))).factors = [P, .unary op (.var v)] ∧
        (Tree.binary .mul (.unary op (.var v)) P).factors = [.unary op (.var v), P] := by
      cases hP <;> exact ⟨rfl, rfl⟩
    constructor
    · refine answers_succ fun n hn => ?_
      obtain ⟨F, hF⟩ := hstep n (by omega) (partsPlan v (.unary op (.var v)) P .decline)
      refine exists_run_mul hp hP.mentions hf ⟨s, ?_⟩ hF
      rw [substitutionPlan, hfactors.1, hs, Plan.run_ofExcept]
    · refine answers_succ fun n hn => ?_
      -- the function is no polynomial, so the factors are taken the other way round
      obtain ⟨F, hF⟩ := hstep n (by omega) .decline
      refine exists_run_mul hp hf hP.mentions ⟨s', ?_⟩ hF
      rw [substitutionPlan, hfactors.2, hs', Plan.run_ofExcept]

end Steps

/-- **Integration by parts reaches every degree the levels allow**: a power
of `v` times sine, cosine or exponential of `v` is integrated, in either
order. What is found is an antiderivative if the numbers are exact and `v`
is an identifier. -/
theorem integrate_mul_monomial [Counting α] (p : Pipeline α) (hp : p.strategies = Strategy.standard)
    (v : String) (op : UnaryOp) (hop : Cyclic op) (n : Nat) (P : Tree α)
    (hP : Tree.Monomial v n P) (hd : 2 * n + 1 ≤ p.maxDepth) (t : Tree α)
    (ht : t = .binary .mul P (.unary op (.var v)) ∨ t = .binary .mul (.unary op (.var v)) P) :
    ∃ F, p.integrate t v = .ok F ∧
      ∀ [Exact α ℝ] [Spelled α], Text.IsIdentifier v → Tree.IsAntiderivative v F t := by
  obtain ⟨F, hF⟩ : ∃ F, p.integrate t v = .ok F := by
    obtain ⟨hleft, hright⟩ := answers_mul_monomial hp hop hP
    rcases ht with rfl | rfl
    · exact hleft p.maxDepth hd
    · exact hright p.maxDepth hd
  refine ⟨F, hF, fun hv => isAntiderivative_of_run (sampled_eq_false hp) hv ?_ hF⟩
  rcases ht with rfl | rfl
  · exact ⟨hP.over hv, hv⟩
  · exact ⟨hv, hP.over hv⟩

/-- The thirty-two levels of the standard pipeline are enough for
`x ^ 15 * sin x`, in double precision and with exact numbers. -/
theorem integrate_mul_monomial_fifteen :
    (∃ F, (standard : Pipeline Float).integrate
        (.binary .mul (.binary .pow (.var "x") (.const (Scalar.ofNat 15)))
          (.unary .sin (.var "x"))) "x" = .ok F) ∧
      ∃ F, (standard : Pipeline Closed).integrate
          (.binary .mul (.binary .pow (.var "x") (.const (Scalar.ofNat 15)))
            (.unary .sin (.var "x"))) "x" = .ok F ∧
        Tree.IsAntiderivative "x" F (.binary .mul (.binary .pow (.var "x")
          (.const (Scalar.ofNat 15))) (.unary .sin (.var "x"))) := by
  constructor
  · obtain ⟨F, hF, -⟩ := integrate_mul_monomial (standard : Pipeline Float) rfl "x" .sin .sin
      15 _ (.power (by decide) (by decide)) (by decide) _ (.inl rfl)
    exact ⟨F, hF⟩
  · obtain ⟨F, hF, hsound⟩ := integrate_mul_monomial (standard : Pipeline Closed) rfl "x" .sin
      .sin 15 _ (.power (by decide) (by decide)) (by decide) _ (.inl rfl)
    exact ⟨F, hF, hsound (by decide)⟩

end Pipeline

end Fluxion
