/-
How integration can fail. A pipeline that finds no antiderivative reports
the integrand as unsupported; there is one other way out of a run, and
that is a number that is not finite where a literal has to be made.
`Overflows` says that a run comes to such a place, and the run fails by it
exactly then (`Overflows.run_eq_error`, `fault_of_run`).
-/
import Fluxion.Proofs.Double
import Fluxion.Proofs.Integral.Fault

namespace Fluxion

variable {α : Type} [Scalar α]

namespace Pipeline

variable [Numeral α] {p : Pipeline α} {v : String} {t : Tree α} {e : Fault α}

/-- Strategies fail when one of them fails and those before it decline. -/
theorem claim_eq_error {sub : Tree α → Except (Fault α) (Tree α)} {ss : List (Strategy α)} :
    claim sub v t ss = .error e ↔ ∃ before s after, ss = before ++ s :: after ∧
      (∀ r ∈ before, (r.plan v t).run sub = .ok none) ∧ (s.plan v t).run sub = .error e := by
  induction ss with
  | nil =>
    constructor
    · intro h; cases h
    · rintro ⟨before, s, after, h, -⟩; cases before <;> cases h
  | cons s rest ih =>
    constructor
    · intro h
      rw [claim] at h
      split at h
      · next hs => cases h; exact ⟨[], s, rest, rfl, by simp, hs⟩
      · cases h
      · next hs =>
        obtain ⟨before, r, after, rfl, hbefore, hr⟩ := ih.mp h
        exact ⟨s :: before, r, after, rfl, List.forall_mem_cons.mpr ⟨hs, hbefore⟩, hr⟩
    · rintro ⟨before, r, after, hss, hbefore, hr⟩
      rw [claim]
      cases before with
      | nil =>
        obtain ⟨rfl, rfl⟩ := List.cons.inj hss
        rw [hr]
      | cons b bs =>
        obtain ⟨rfl, rfl⟩ := List.cons.inj hss
        obtain ⟨hb, hbs⟩ := List.forall_mem_cons.mp hbefore
        rw [hb]
        exact ih.mpr ⟨bs, r, after, rfl, hbs, hr⟩

/-- `s` is one of the strategies, and those before it decline. -/
def Reaches (p : Pipeline α) (v : String) (n : Nat) (t : Tree α) (s : Strategy α) : Prop :=
  ∃ before after, p.strategies = before ++ s :: after ∧
    ∀ r ∈ before, (r.plan v t).run (p.run v n) = .ok none

/-- A run with these levels left comes to make a literal of `a`, which is
not finite: for the integrand itself, or for an integral that a strategy
asks for. -/
inductive Overflows (p : Pipeline α) (v : String) : Nat → Tree α → α → Prop
  | here {n t s a} (hs : p.Reaches v n t s) (h : s.Overflows (p.run v n) v t a) :
      Overflows p v (n + 1) t a
  | nested {n t s u a} (hs : p.Reaches v n t s) (hask : (s.plan v t).Asks (p.run v n) u)
      (h : Overflows p v n u a) : Overflows p v (n + 1) t a

theorem run_succ_eq_error {n : Nat} :
    p.run v (n + 1) t = .error e ↔
      (∃ s, p.Reaches v n t s ∧ (s.plan v t).run (p.run v n) = .error e) ∨
        (claim (p.run v n) v t p.strategies = .ok none ∧ e = .unsupported t v) := by
  have hclaim : claim (p.run v n) v t p.strategies = .error e ↔
      ∃ s, p.Reaches v n t s ∧ (s.plan v t).run (p.run v n) = .error e := by
    rw [claim_eq_error]
    constructor
    · rintro ⟨before, s, after, hss, hbefore, h⟩
      exact ⟨s, ⟨before, after, hss, hbefore⟩, h⟩
    · rintro ⟨s, ⟨before, after, hss, hbefore⟩, h⟩
      exact ⟨before, s, after, hss, hbefore, h⟩
  rw [← hclaim, run]
  split
  · next d hd => simp [hd]
  · next r hr => simp [hr]
  · next hd => simp [hd, eq_comm]

variable [Steady α]

theorem Overflows.run_eq_error {n : Nat} {a : α} (h : p.Overflows v n t a) :
    p.run v n t = .error (.notFinite a) := by
  induction h with
  | here hs h => exact run_succ_eq_error.mpr (.inl ⟨_, hs, h.run_eq_error⟩)
  | nested hs hask _ ih => exact run_succ_eq_error.mpr (.inl ⟨_, hs, hask.run_eq_error ih rfl⟩)

/-- By induction on the levels left: a fault that ends a plan comes from a
sub-integral one level deeper, and is a number that is not finite there. -/
theorem fault_of_run {P : String → Prop} (hv : P v) {n : Nat} (ht : t.Over P)
    (h : p.run v n t = .error e) :
    e = .tooDeep p.limit t v ∧ n = 0 ∨ e = .unsupported t v ∧ n ≠ 0 ∨
      ∃ a, e = .notFinite a ∧ p.Overflows v n t a := by
  induction n generalizing t e with
  | zero => cases h; exact .inl ⟨rfl, rfl⟩
  | succ n ih =>
    rcases run_succ_eq_error.mp h with ⟨s, hs, h⟩ | ⟨-, rfl⟩
    · rcases Strategy.breaks_or_overflows ht (over_of_run hv) h with
        ⟨u, hu, hask, hsub, hdec⟩ | ⟨a, he, ha⟩
      · rcases ih hu hsub with ⟨rfl, -⟩ | ⟨rfl, -⟩ | ⟨a, he, ha⟩
        · cases hdec
        · cases hdec
        · exact .inr (.inr ⟨a, he, .nested hs hask ha⟩)
      · exact .inr (.inr ⟨a, he, .here hs ha⟩)
    · exact .inr (.inl ⟨rfl, Nat.succ_ne_zero n⟩)

/-! ## Double precision -/

/-- **Integration answers unless a literal overflows.** A pipeline with at
least one level, given a tree with finite literals, returns an
antiderivative or reports the integrand as unsupported, and an attempt
returns an antiderivative or nothing, exactly when the run makes no literal
of a number that is not finite. -/
theorem answers_iff_not_overflows (p : Pipeline Float) (hp : 0 < p.maxDepth) (t : Tree Float)
    (ht : t.AllFinite) (v : String) :
    (((∃ F, p.integrate t v = .ok F) ∨ p.integrate t v = .error (.unsupported t v)) ∧
      ∃ r, p.integrate? t v = .ok r) ↔ ¬∃ a, p.Overflows v p.maxDepth t a := by
  constructor
  · rintro ⟨h, -⟩ ⟨a, ha⟩
    have herr : p.integrate t v = .error (.notFinite a) := ha.run_eq_error
    rw [herr] at h
    rcases h with ⟨F, h⟩ | h <;> cases h
  · intro hno
    have hout : (∃ F, p.integrate t v = .ok F) ∨ p.integrate t v = .error (.unsupported t v) := by
      cases hrun : p.integrate t v with
      | ok F => exact .inl ⟨F, rfl⟩
      | error e =>
        have hover : t.Over fun _ => True := Tree.over_iff.mpr ⟨ht, fun _ _ => trivial⟩
        rcases fault_of_run trivial hover hrun with ⟨-, h₀⟩ | ⟨rfl, -⟩ | ⟨a, -, ha⟩
        · omega
        · exact .inr rfl
        · exact absurd ⟨a, ha⟩ hno
    refine ⟨hout, ?_⟩
    rcases hout with ⟨F, hF⟩ | hF
    · exact ⟨some F, by rw [integrate?, hF]⟩
    · exact ⟨none, by rw [integrate?, hF]⟩

/-- No literal of `2 * x` overflows: it has an antiderivative. -/
theorem not_overflows_two_mul :
    0 < (standard : Pipeline Float).maxDepth ∧
      (Tree.binary .mul (.const (2 : Float)) (.var "x")).AllFinite ∧
      ¬∃ a, (standard : Pipeline Float).Overflows "x" (standard : Pipeline Float).maxDepth
        (.binary .mul (.const 2) (.var "x")) a := by
  have hdepth : 0 < (standard : Pipeline Float).maxDepth := by decide
  have hfin : (Tree.binary .mul (.const (2 : Float)) (.var "x")).AllFinite := ⟨rfl, trivial⟩
  exact ⟨hdepth, hfin, (answers_iff_not_overflows standard hdepth _ hfin "x").mp
    ⟨.inl ⟨_, rfl⟩, _, rfl⟩⟩

/-- `2 ^ 700`. -/
def large : Float := .ofBits 0x6BB0000000000000

/-- `(2^700 * x) * (2^700 * sin (x ^ 2))`. -/
def largeProduct : Tree Float :=
  .binary .mul (.binary .mul (.const large) (.var "x"))
    (.binary .mul (.const large) (.unary .sin (.binary .pow (.var "x") (.const 2))))

/-- The literals of `largeProduct` are finite and their product is not:
substitution is refused it as a literal, and there is no answer. -/
theorem largeProduct_no_answer :
    largeProduct.AllFinite ∧
      ¬(((∃ F, standard.integrate largeProduct "x" = .ok F) ∨
          standard.integrate largeProduct "x" = .error (.unsupported largeProduct "x")) ∧
        ∃ r, standard.integrate? largeProduct "x" = .ok r) := by
  have herr : ∃ a, standard.integrate largeProduct "x" = .error (.notFinite a) := ⟨_, rfl⟩
  obtain ⟨a, ha⟩ := herr
  refine ⟨⟨⟨rfl, trivial⟩, rfl, trivial, rfl⟩, ?_⟩
  rw [ha]
  rintro ⟨⟨F, h⟩ | h, -⟩ <;> cases h

end Pipeline

end Fluxion
