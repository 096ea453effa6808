/-
The variables of an antiderivative. All of them are variables of the
integrand or the variable of integration (`Pipeline.over_of_run`), and the
variable of integration is one of them (`mentions_of_run`): a leaf of the
search puts it there, and what is built on a sub-integral keeps the
sub-integral. Substitution alone asks for no sub-integral; it finds the
variable in the argument of the outer function.

So an antiderivative of a tree in `v` alone is a tree in `v` alone, and its
values at the bounds of a definite integral want no other variable. The
search for it evaluates trees without bindings, but keeps to itself that
these have no value (`noValue_of_run`).
-/
import Fluxion.Calculus
import Fluxion.Double.Arithmetic
import Fluxion.Proofs.Double
import Fluxion.Proofs.Integral.Over
import Fluxion.Proofs.Integral.Selection

namespace Fluxion

variable {α : Type} [Scalar α] {v : String} {t F : Tree α}

/-! ## The variable of integration -/

namespace Strategy

variable {sub : Tree α → Except (Fault α) (Tree α)} {s : Strategy α}

omit [Scalar α] in
theorem mentions_outerAntiderivative {op : UnaryOp} {u g : Tree α}
    (h : outerAntiderivative? op u = some g) (hu : u.mentions v = true) : g.mentions v = true := by
  cases op <;> cases h <;> exact hu

theorem mentions_scaledBy {k : α} {g : Tree α} (h : scaledBy k g = .ok F)
    (hg : g.mentions v = true) : F.mentions v = true := by
  unfold scaledBy at h
  split at h
  · cases h; exact hg
  · obtain ⟨c, -, rfl⟩ := map_eq_ok.mp h
    simp [Tree.mentions, hg]

theorem mentions_logTerm (v : String) (c : Tree α) : (logTerm v c).mentions v = true := by
  unfold logTerm
  split <;> simp [Tree.mentions]

omit [Scalar α] in
theorem mentions_powerQuotient (v : String) (a : α) : (powerQuotient v a).mentions v = true := by
  simp [powerQuotient, Tree.mentions]

variable [Numeral α]

/-- Only a function whose argument mentions the variable is taken for the
outer function. -/
theorem mentions_substituteFactor {m : Matching α} {before fs : List (Tree α)}
    (h : substituteFactor m v before fs = .ok (some F)) : F.mentions v = true := by
  induction fs generalizing before with
  | nil => cases h
  | cons factor after ih =>
    unfold substituteFactor at h
    split at h
    · split at h
      · next g hg =>
        split at h
        · next hu =>
          split at h
          · cases h
          · split at h
            · obtain ⟨T, hT, hF⟩ := map_eq_ok.mp h
              cases hF
              exact mentions_scaledBy hT (mentions_outerAntiderivative hg hu)
            · exact ih h
        · exact ih h
      · exact ih h
    · exact ih h

/-- The rules other than substitution, when the sub-integrals mention the
variable. -/
theorem mentions_of_finds (hs : ∀ m, s ≠ .substitution m)
    (hsub : ∀ {u w}, sub u = .ok w → w.mentions v = true) (h : s.Finds sub v t F) :
    F.mentions v = true := by
  cases h with
  | identity => exact mentions_powerQuotient v _
  | lnPower he hn h => simp [Tree.mentions]
  | power he hn hfin => exact mentions_powerQuotient v _
  | constant hc => simp [Tree.mentions]
  | leftFactor hc hw => simp [Tree.mentions, hsub hw]
  | rightFactor hc hw => simp [Tree.mentions, hsub hw]
  | ln hc => exact mentions_logTerm v _
  | lnFirstPower hc he hn h => exact mentions_logTerm v _
  | reciprocal hc he hn hfin =>
    split
    · exact mentions_powerQuotient v _
    · simp [Tree.mentions, mentions_powerQuotient]
  | sin => simp [Tree.mentions]
  | cos => simp [Tree.mentions]
  | tan he => simp [Tree.mentions]
  | cot he => simp [Tree.mentions]
  | exp => simp [Tree.mentions]
  | onePower hb ha h => simp [Tree.mentions]
  | exponential hb => simp [Tree.mentions]
  | neg hw => simp [Tree.mentions, hsub hw]
  | divisor hc hw => simp [Tree.mentions, hsub hw]
  | @substitution m => exact absurd rfl (hs m)
  | parts ht hw hrest hs => simp [Tree.mentions, hsub hw]
  | sum ha hb => simp [Tree.mentions, hsub ha]
  | difference ha hb => simp [Tree.mentions, hsub ha]

theorem mentions_of_run (hsub : ∀ {u w}, sub u = .ok w → w.mentions v = true)
    (h : (s.plan v t).run sub = .ok (some F)) : F.mentions v = true := by
  cases s with
  | substitution m =>
    rw [plan, substitutionPlan, Plan.run_ofExcept] at h
    exact mentions_substituteFactor h
  | _ => exact mentions_of_finds (fun _ hs => by cases hs) hsub (finds_of_run h)

end Strategy

namespace Pipeline

variable [Numeral α] {p : Pipeline α} {n : Nat}

theorem mentions_of_run (h : p.run v n t = .ok F) : F.mentions v = true := by
  induction n generalizing t F with
  | zero => cases h
  | succ n ih =>
    rw [run] at h
    split at h
    · cases h
    · next r hr =>
      obtain ⟨s, G⟩ := r
      cases h
      obtain ⟨before, after, -, -, hs⟩ := claim_eq_ok_some.mp hr
      exact Strategy.mentions_of_run ih hs
    · cases h

/-! ## Values that are not there -/

theorem noValue_of_run {e : Fault α} (h : p.run v n t = .error e) : e.noValue = false := by
  cases n with
  | zero => cases h; rfl
  | succ n =>
    rw [run] at h
    split at h
    · next d hd =>
      cases h
      obtain ⟨-, s, -, -, -, hs⟩ := claim_eq_error.mp hd
      have hdec : e.declines = false := (Strategy.firm_plan s).declines_eq_false hs
      cases e <;> first | rfl | cases hdec
    · cases h
    · cases h; rfl

end Pipeline

namespace Operand

variable [Numeral α]

theorem noValue_of_number {o : Operand α} {e : Fault α} (h : o.number = .error e) :
    e.noValue = false := by
  unfold number at h
  split at h
  · rw [ofInteger] at h
    split at h <;> cases h
    rfl
  · cases h
  · cases h
  · split at h <;> cases h
    rfl
  · cases h; rfl
  · cases h; rfl

theorem noValue_of_cell {o : Operand α} {e : Fault α} (h : o.cell = .error e) :
    e.noValue = false := by
  unfold cell at h
  split at h
  · cases h
  · exact noValue_of_number h

end Operand

/-- A tree in one variable is evaluated without asking for another. -/
theorem Tree.evaluateAt_ne_unbound (h : ∀ x ∈ F.names, x = v) (a : α) (x : String) :
    F.evaluateAt v a ≠ .error (.unbound x) := by
  intro he
  rcases evaluate_eq_error he with he | ⟨y, hy, hnone, -⟩
  · cases he
  · rw [h y hy] at hnone
    simp [Environment.get?] at hnone

/-! ## Antiderivatives -/

variable [Steady α] [Numeral α]

theorem Pipeline.names_of_run {p : Pipeline α} {n : Nat} (ht : t.AllFinite)
    (h : p.run v n t = .ok F) {x : String} (hx : x ∈ F.names) : x ∈ t.names ∨ x = v := by
  have hover : t.Over fun y => y ∈ t.names ∨ y = v :=
    Tree.over_iff.mpr ⟨ht, fun y hy => .inl hy⟩
  exact (Tree.over_iff.mp (over_of_run (.inr rfl) hover h)).2 x hx

theorem Tree.names_of_antiderivative (ht : t.AllFinite) (hnames : ∀ x ∈ t.names, x = v)
    (hF : t.antiderivative v = .ok F) : ∀ x ∈ F.names, x = v := fun x hx =>
  (Pipeline.names_of_run ht hF hx).elim (hnames x) id

/-- **Antiderivatives invent no variables.** The variables of an
antiderivative are among those of the integrand and the variable of
integration, which does occur in it. So the definite integral of an
expression in one variable does not fail for a variable without a value. -/
theorem Tree.distinctNames_antiderivative (t : Tree α) (ht : t.AllFinite) (v : String) :
    (∀ (p : Pipeline α) (F : Tree α), p.integrate t v = .ok F →
      (∀ x ∈ F.distinctNames, x ∈ t.distinctNames ∨ x = v) ∧ v ∈ F.distinctNames) ∧
    ((∀ x ∈ t.distinctNames, x = v) → ∀ expr wrt a b : Operand α,
      expr.promote = .ok t → wrt.variableName = .ok v →
        ∀ x, Calculus.definiteIntegral expr wrt a b ≠ .error (.unbound x)) := by
  simp only [mem_distinctNames]
  refine ⟨fun p F hF => ⟨fun x hx => Pipeline.names_of_run ht hF hx, ?_⟩, ?_⟩
  · exact (mentions_iff v F).mp (Pipeline.mentions_of_run hF)
  · intro hnames expr wrt a b hexpr hwrt x h
    rw [Calculus.definiteIntegral, hexpr, hwrt] at h
    change (t.antiderivative v >>= _) = _ at h
    rcases bind_eq_error.mp h with h | ⟨F, hF, h⟩
    · cases Pipeline.noValue_of_run h
    have hF' := names_of_antiderivative ht hnames hF
    -- the upper bound is read and its value taken, then the lower one
    rcases bind_eq_error.mp h with h | ⟨c, -, h⟩
    · cases Operand.noValue_of_cell h
    rcases bind_eq_error.mp h with h | ⟨upper, -, h⟩
    · exact evaluateAt_ne_unbound hF' c x h
    rcases bind_eq_error.mp h with h | ⟨d, -, h⟩
    · cases Operand.noValue_of_cell h
    rcases bind_eq_error.mp h with h | ⟨lower, -, h⟩
    · exact evaluateAt_ne_unbound hF' d x h
    · cases h

def linearCos : Tree Float := .binary .mul (.var "x") (.unary .cos (.var "x"))

/-- An antiderivative of `linearCos`, by parts. -/
def linearCosIntegral : Tree Float :=
  .binary .sub (.binary .mul (.var "x") (.unary .sin (.var "x")))
    (.unary .neg (.unary .cos (.var "x")))

/-- A factor `y` in front of `linearCos` stays; without it there is nothing to
bind but `x`. -/
theorem Tree.distinctNames_antiderivative_linearCos :
    (Tree.binary .mul (.var "y") linearCos).AllFinite ∧
      Pipeline.standard.integrate (.binary .mul (.var "y") linearCos) "x" =
        .ok (.binary .mul (.var "y") linearCosIntegral) ∧
      (∀ x ∈ (Tree.binary .mul (.var "y") linearCosIntegral).distinctNames,
        x ∈ (Tree.binary .mul (.var "y") linearCos).distinctNames ∨ x = "x") ∧
      "x" ∈ (Tree.binary .mul (.var "y") linearCosIntegral).distinctNames ∧
      linearCos.AllFinite ∧ (∀ x ∈ linearCos.distinctNames, x = "x") ∧
      ∀ x, Calculus.definiteIntegral (.tree linearCos) (.text "x") (.whole 0) (.real 1) ≠
        .error (.unbound x) := by
  have hscaled : (Tree.binary .mul (.var "y") linearCos).AllFinite := ⟨trivial, trivial, trivial⟩
  have hplain : linearCos.AllFinite := ⟨trivial, trivial⟩
  have hF : Pipeline.standard.integrate (.binary .mul (.var "y") linearCos) "x" =
      .ok (.binary .mul (.var "y") linearCosIntegral) := rfl
  have hnames : ∀ x ∈ linearCos.distinctNames, x = "x" := by decide
  obtain ⟨hinvents, hoccurs⟩ :=
    (distinctNames_antiderivative _ hscaled "x").1 Pipeline.standard _ hF
  exact ⟨hscaled, hF, hinvents, hoccurs, hplain, hnames,
    (distinctNames_antiderivative linearCos hplain "x").2 hnames (.tree linearCos) (.text "x")
      (.whole 0) (.real 1) rfl rfl⟩

end Fluxion
