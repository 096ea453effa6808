/-
What a caller is told when an integral is refused. The integrals that
strategies ask for are refused by faults of the same kind, for other integrands
and also for want of levels, but none of these gets out: a plan answers them by
going on without the integral, and fails by no such fault of its own
(`Strategy.firm_plan`). So a refusal that a search ends in is its own, at every
level (`refusal_of_run`). At the top there is a level left, and the caller is
told of the integrand that was handed over.
-/
import Fluxion.Proofs.Integral.Selection

namespace Fluxion

variable {α : Type}

/-! ## Operands -/

namespace Operand

variable {o : Operand α} {e : Fault α}

theorem refuses_variableName (h : o.variableName = .error e) : e.refuses = false := by
  unfold variableName at h
  split at h
  · cases h
  · split at h <;> cases h
    rfl
  · cases h
    rfl

variable [Scalar α]

/-- An operand that is no tree is not refused as an integrand. -/
theorem refuses_promote (h : o.promote = .error e) : e.refuses = false := by
  cases o with
  | tree t => cases h
  | text s =>
    rw [promote, Tree.named] at h
    split at h <;> cases h
    rfl
  | truth b => cases h; rfl
  | whole n =>
    rcases bind_eq_error.mp h with h | ⟨a, -, h⟩
    · rw [ofInteger] at h
      split at h <;> cases h
      rfl
    · rw [(Tree.literal_eq_error.mp h).2]
      rfl
  | real a =>
    rw [(Tree.literal_eq_error.mp h).2]
    rfl
  | nothing => cases h; rfl

end Operand

namespace Pipeline

variable [Scalar α] [Numeral α] {p : Pipeline α} {v : String} {n : Nat} {t : Tree α} {e : Fault α}

/-! ## Searches -/

/-- At every level a refusal is about the integrand of that level: for want of
levels if there are none left, and otherwise because every strategy declined. -/
theorem refusal_of_run (h : p.run v n t = .error e) (he : e.refuses = true) :
    e = .tooDeep p.limit t v ∧ n = 0 ∨ e = .unsupported t v ∧ n ≠ 0 := by
  cases n with
  | zero => cases h; exact .inl ⟨rfl, rfl⟩
  | succ n =>
    rw [run] at h
    split at h
    · next d hd =>
      cases h
      rw [refuses_of_claim hd] at he
      cases he
    · cases h
    · cases h; exact .inr ⟨rfl, Nat.succ_ne_zero n⟩

theorem refusal_of_integrate (hp : 0 < p.maxDepth) (h : p.integrate t v = .error e)
    (he : e.refuses = true) : e = .unsupported t v := by
  rcases refusal_of_run h he with ⟨-, hzero⟩ | ⟨rfl, -⟩
  · exact absurd hzero hp.ne'
  · rfl

/-- An attempt makes nothing of a refusal. -/
theorem refuses_of_attempt (h : p.integrate? t v = .error e) : e.refuses = false := by
  unfold integrate? at h
  split at h
  · cases h
  · cases h
  · cases h
  · next d hunsupported hdeep _ =>
    cases h
    cases e with
    | unsupported u w => exact absurd rfl (hunsupported u w)
    | tooDeep limit u w => exact absurd rfl (hdeep limit u w)
    | _ => rfl

theorem refuses_of_select (h : p.select t v = .error e) : e.refuses = false :=
  refuses_of_claim (map_eq_error.mp h)

/-! ## Calls -/

theorem refusal_of_replyTo (hp : 0 < p.maxDepth) {c : Call α} (h : p.replyTo c = .error e)
    (he : e.refuses = true) :
    c.request = .integrate ∧ ∃ t v, c.integrand.promote = .ok t ∧ c.wrt.variableName = .ok v ∧
      e = .unsupported t v := by
  rcases bind_eq_error.mp h with h | ⟨t, ht, h⟩
  · rw [Operand.refuses_promote h] at he
    cases he
  rcases bind_eq_error.mp h with h | ⟨v, hv, h⟩
  · rw [Operand.refuses_variableName h] at he
    cases he
  cases hrequest : c.request with
  | integrate =>
    rw [hrequest] at h
    exact ⟨rfl, t, v, ht, hv, refusal_of_integrate hp (map_eq_error.mp h) he⟩
  | attempt =>
    rw [hrequest] at h
    rw [refuses_of_attempt (map_eq_error.mp h)] at he
    cases he
  | select =>
    rw [hrequest] at h
    rw [refuses_of_select (map_eq_error.mp h)] at he
    cases he

/-- **A refusal is about the caller's own integrand.** If a call that is made
with no integration in progress is refused, then it asks for an integral, and
the refusal names the tree that its integrand stands for and its variable. Its
message is that there is no antiderivative, and not that a limit was reached. -/
theorem call_refusal (p : Pipeline α) (hp : 0 < p.maxDepth) (c : Call α) (l : Ledger α)
    (hl : l.depth = 0) (e : Fault α) (h : (p.call c l).1 = .error e) (he : e.refuses = true) :
    c.request = .integrate ∧ ∃ t v, c.integrand.promote = .ok t ∧ c.wrt.variableName = .ok v ∧
      e = .unsupported t v ∧
      e.message? = some ("Cannot symbolically integrate: " ++ t.text ++
        "\nConsider using numerical integration instead.") := by
  rw [(p.call_eq c l hl).1] at h
  obtain ⟨hrequest, t, v, ht, hv, rfl⟩ := refusal_of_replyTo hp h he
  exact ⟨hrequest, t, v, ht, hv, rfl, rfl⟩

/-- With one level the terms of `x + x` are out of reach, and it is the sum
that is refused. -/
theorem call_refusal_shallow_sum :
    0 < shallow.maxDepth ∧ (Ledger.empty : Ledger Float).depth = 0 ∧
      (shallow.run "x" 0 (.var "x") = .error (.tooDeep "1" (.var "x") "x")) ∧
      (shallow.call ⟨.integrate, .tree (.binary .add (.var "x") (.var "x")), .text "x"⟩ .empty).1 =
        .error (.unsupported (.binary .add (.var "x") (.var "x")) "x") ∧
      (Fault.unsupported (.binary .add (.var "x") (.var "x") : Tree Float) "x").message? =
        some ("Cannot symbolically integrate: " ++
          (.binary .add (.var "x") (.var "x") : Tree Float).text ++
          "\nConsider using numerical integration instead.") := by
  have hcall : (shallow.call ⟨.integrate, .tree (.binary .add (.var "x") (.var "x")), .text "x"⟩
      .empty).1 = .error (.unsupported (.binary .add (.var "x") (.var "x")) "x") := rfl
  obtain ⟨-, t, v, ht, hv, -, hmessage⟩ :=
    call_refusal shallow (by decide) _ .empty rfl _ hcall rfl
  cases ht
  cases hv
  exact ⟨by decide, rfl, rfl, hcall, hmessage⟩

end Pipeline

end Fluxion
