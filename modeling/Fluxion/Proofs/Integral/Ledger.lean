/-
The pipeline over time. An integration that starts on a ledger has as many
levels as the limit leaves above the integrations in progress, so what it
answers is given by the recursion on levels alone (`tracks_runRecorded`);
and it leaves the depth counter where it found it, whether it ends with an
antiderivative, without one, or in a fault.

`Settles` is what every part of a run does to the ledger, and `Tracks` says
that an integrator on ledgers does so and answers like one without. Plans,
lists of strategies and runs hand the two on, and with them a whole session
(`calls_answer_as_fresh`): no call is answered differently for the calls
before it.
-/
import Fluxion.Double.Arithmetic
import Fluxion.Integral.Session
import Fluxion.Proofs.Integral.Rules

namespace Fluxion

variable {α : Type}

/-- How many integrations are in progress around the one the entry is
about. -/
def Event.depth : Event α → Nat
  | .trying depth _ _ _ => depth
  | .found depth _ _ _ => depth

namespace Ledger

/-- The depth counter is back where it was, and what was entered meanwhile
happened at depths below the limit. -/
structure Settles (limit : Nat) (l l' : Ledger α) : Prop where
  depth : l'.depth = l.depth
  events : ∀ e ∈ l'.events, e ∈ l.events ∨ e.depth < limit

variable {limit : Nat} {l l' l'' : Ledger α}

theorem Settles.refl (l : Ledger α) : l.Settles limit l := ⟨rfl, fun _ he => .inl he⟩

theorem Settles.trans (h : l.Settles limit l') (h' : l'.Settles limit l'') :
    l.Settles limit l'' where
  depth := h'.depth.trans h.depth
  events e he := (h'.events e he).elim (h.events e) .inr

theorem Settles.note {e : Event α} (he : e.depth < limit) (h : l.Settles limit l') :
    l.Settles limit (l'.note e) where
  depth := h.depth
  events e' he' := by
    rcases List.mem_cons.mp he' with rfl | he'
    · exact .inr he
    · exact h.events e' he'

/-- The counter is set up one level, and back at the end. -/
theorem Settles.level {d : Nat} (h : ({ l with depth := d } : Ledger α).Settles limit l') :
    l.Settles limit { l' with depth := l.depth } :=
  ⟨rfl, h.events⟩

end Ledger

/-- On ledgers with `d` integrations in progress, `sub` answers like `f` and
settles. -/
def Tracks (limit d : Nat) (sub : Tree α → Ledger α → Except (Fault α) (Tree α) × Ledger α)
    (f : Tree α → Except (Fault α) (Tree α)) : Prop :=
  ∀ u l, l.depth = d → (sub u l).1 = f u ∧ l.Settles limit (sub u l).2

/-- A plan asks one integral after the other, each on the ledger that the
last one left. -/
theorem Plan.record_eq {limit d : Nat}
    {sub : Tree α → Ledger α → Except (Fault α) (Tree α) × Ledger α}
    {f : Tree α → Except (Fault α) (Tree α)} (hsub : Tracks limit d sub f) (plan : Plan α)
    (l : Ledger α) (hl : l.depth = d) :
    (plan.record sub l).1 = plan.run f ∧ l.Settles limit (plan.record sub l).2 := by
  induction plan generalizing l with
  | decline => exact ⟨rfl, .refl l⟩
  | done t => exact ⟨rfl, .refl l⟩
  | fail e => exact ⟨rfl, .refl l⟩
  | ask u next ih =>
    obtain ⟨hanswer, hsettle⟩ := hsub u l hl
    rw [record, run, ← hanswer]
    generalize sub u l = r at hsettle
    obtain ⟨r, l'⟩ := r
    have onward (x : Option (Tree α)) :
        ((next x).record sub l').1 = (next x).run f ∧
          l.Settles limit ((next x).record sub l').2 := by
      obtain ⟨h₁, h₂⟩ := ih x l' (hsettle.depth.trans hl)
      exact ⟨h₁, hsettle.trans h₂⟩
    cases r with
    | ok w => exact onward (some w)
    | error e =>
      dsimp only
      split
      · exact onward none
      · exact ⟨rfl, hsettle⟩

namespace Pipeline

variable [Scalar α] [Numeral α] {p : Pipeline α} {v : String}

/-- The strategies are tried at depth `d`, their sub-integrals one level
deeper. -/
theorem claimRecorded_eq {limit d : Nat}
    {sub : Tree α → Ledger α → Except (Fault α) (Tree α) × Ledger α}
    {f : Tree α → Except (Fault α) (Tree α)} (hsub : Tracks limit (d + 1) sub f) (hd : d < limit)
    (t : Tree α) (ss : List (Strategy α)) (l : Ledger α) (hl : l.depth = d + 1) :
    (claimRecorded sub d v t ss l).1 = claim f v t ss ∧
      l.Settles limit (claimRecorded sub d v t ss l).2 := by
  induction ss generalizing l with
  | nil => exact ⟨rfl, .refl l⟩
  | cons s rest ih =>
    have hnote : l.Settles limit (l.note (.trying d s.name t v)) := (Ledger.Settles.refl l).note hd
    obtain ⟨hplan, hsettle⟩ :=
      Plan.record_eq hsub (s.plan v t) (l.note (.trying d s.name t v)) (hnote.depth.trans hl)
    rw [claimRecorded, claim, ← hplan]
    generalize (s.plan v t).record sub (l.note (.trying d s.name t v)) = r at hsettle
    obtain ⟨r, l'⟩ := r
    have hl' : l.Settles limit l' := hnote.trans hsettle
    rcases r with e | _ | w
    · exact ⟨rfl, hl'⟩
    · obtain ⟨h₁, h₂⟩ := ih l' (hl'.depth.trans hl)
      exact ⟨h₁, hl'.trans h₂⟩
    · exact ⟨rfl, hl'.note hd⟩

/-- **The counter is the levels already used.** By induction on the fuel:
an integration that may start tries its strategies with the counter one
higher, where one level less is left. -/
theorem tracks_runRecorded (p : Pipeline α) (v : String) (fuel d : Nat)
    (hfuel : p.maxDepth - d < fuel) :
    Tracks p.maxDepth d (p.runRecorded v fuel) (p.run v (p.maxDepth - d)) := by
  induction fuel generalizing d with
  | zero => omega
  | succ n ih =>
    rintro t l rfl
    rw [runRecorded]
    split
    · next hdeep =>
      rw [Nat.sub_eq_zero_of_le hdeep]
      exact ⟨rfl, .refl l⟩
    · next hroom =>
      obtain ⟨hclaim, hsettle⟩ := claimRecorded_eq (v := v) (ih (l.depth + 1) (by omega))
        (by omega) t p.strategies { l with depth := l.depth + 1 } rfl
      rw [show p.maxDepth - l.depth = p.maxDepth - (l.depth + 1) + 1 by omega, run, ← hclaim]
      dsimp only
      generalize claimRecorded (p.runRecorded v n) l.depth v t p.strategies
        { l with depth := l.depth + 1 } = r at hsettle
      obtain ⟨r, l'⟩ := r
      rcases r with e | _ | ⟨s, w⟩
      · exact ⟨rfl, hsettle.level⟩
      · exact ⟨rfl, hsettle.level⟩
      · exact ⟨rfl, hsettle.level⟩

/-- Selecting starts no integration itself, so that the sub-integrals of a
strategy have all the levels. -/
theorem selectRecorded_eq (p : Pipeline α) (v : String) (t : Tree α) (ss : List (Strategy α))
    (l : Ledger α) (hl : l.depth = 0) :
    (p.selectRecorded v t ss l).1 =
        (claim (p.run v p.maxDepth) v t ss).map (fun r => r.map Prod.fst) ∧
      l.Settles p.maxDepth (p.selectRecorded v t ss l).2 := by
  have hsub : Tracks p.maxDepth 0 (p.runRecorded v (p.maxDepth + 1)) (p.run v p.maxDepth) :=
    p.tracks_runRecorded v (p.maxDepth + 1) 0 (by omega)
  induction ss generalizing l with
  | nil => exact ⟨rfl, .refl l⟩
  | cons s rest ih =>
    obtain ⟨hplan, hsettle⟩ := Plan.record_eq hsub (s.plan v t) l hl
    rw [selectRecorded, claim, ← hplan]
    generalize (s.plan v t).record (p.runRecorded v (p.maxDepth + 1)) l = r at hsettle
    obtain ⟨r, l'⟩ := r
    rcases r with e | _ | w
    · exact ⟨rfl, hsettle⟩
    · obtain ⟨h₁, h₂⟩ := ih l' (hsettle.depth.trans hl)
      exact ⟨h₁, hsettle.trans h₂⟩
    · exact ⟨rfl, hsettle⟩

/-! ## Requests -/

/-- The answer to a request, without a ledger. -/
def reply (p : Pipeline α) (request : Request) (t : Tree α) (v : String) :
    Except (Fault α) (Reply α) :=
  match request with
  | .integrate => (p.integrate t v).map .antiderivative
  | .attempt => (p.integrate? t v).map .perhaps
  | .select => (p.select t v).map .strategy

/-- The answer to a call whose operands are read first. -/
def replyTo (p : Pipeline α) (c : Call α) : Except (Fault α) (Reply α) := do
  let t ← c.integrand.promote
  let v ← c.wrt.variableName
  p.reply c.request t v

theorem answer_eq (p : Pipeline α) (request : Request) (t : Tree α) (v : String) (l : Ledger α)
    (hl : l.depth = 0) :
    (p.answer request t v l).1 = p.reply request t v ∧
      l.Settles p.maxDepth (p.answer request t v l).2 := by
  obtain ⟨hrun, hsettle⟩ := p.tracks_runRecorded v (p.maxDepth + 1) 0 (by omega) t l hl
  rw [Nat.sub_zero] at hrun
  cases request with
  | integrate =>
    rw [answer, reply, integrate, ← hrun]
    generalize p.runRecorded v (p.maxDepth + 1) t l = r at hsettle
    obtain ⟨r, l'⟩ := r
    cases r <;> exact ⟨rfl, hsettle⟩
  | attempt =>
    rw [answer, reply, integrate?, integrate, ← hrun]
    generalize p.runRecorded v (p.maxDepth + 1) t l = r at hsettle
    obtain ⟨r, l'⟩ := r
    rcases r with e | w
    · cases e <;> exact ⟨rfl, hsettle⟩
    · exact ⟨rfl, hsettle⟩
  | select =>
    obtain ⟨hselect, hsettle⟩ := p.selectRecorded_eq v t p.strategies l hl
    rw [answer, reply, select, ← hselect]
    generalize p.selectRecorded v t p.strategies l = r at hsettle
    obtain ⟨r, l'⟩ := r
    cases r <;> exact ⟨rfl, hsettle⟩

theorem call_eq (p : Pipeline α) (c : Call α) (l : Ledger α) (hl : l.depth = 0) :
    (p.call c l).1 = p.replyTo c ∧ l.Settles p.maxDepth (p.call c l).2 := by
  unfold call replyTo
  cases c.integrand.promote with
  | error e => exact ⟨rfl, .refl l⟩
  | ok t =>
    cases c.wrt.variableName with
    | error e => exact ⟨rfl, .refl l⟩
    | ok v => exact p.answer_eq c.request t v l hl

/-! ## Sessions -/

/-- By induction on the calls, each of which starts where the last one
settled. -/
theorem calls_eq (p : Pipeline α) (cs : List (Call α)) (l : Ledger α) (hl : l.depth = 0) :
    (p.calls cs l).1 = cs.map p.replyTo ∧ l.Settles p.maxDepth (p.calls cs l).2 := by
  induction cs generalizing l with
  | nil => exact ⟨rfl, .refl l⟩
  | cons c rest ih =>
    obtain ⟨hreply, hsettle⟩ := p.call_eq c l hl
    obtain ⟨hreplies, hrest⟩ := ih (p.call c l).2 (hsettle.depth.trans hl)
    refine ⟨?_, hsettle.trans hrest⟩
    rw [calls, List.map_cons, ← hreply, ← hreplies]

/-- **Sessions leave no trace.** After any calls on a pipeline the depth
counter is zero; every call is answered as it would be on a fresh pipeline,
also after calls that failed; and no strategy is tried at a depth that
reaches the limit. -/
theorem calls_answer_as_fresh (p : Pipeline α) (cs : List (Call α)) :
    (∀ before after, cs = before ++ after → (p.calls before .empty).2.depth = 0) ∧
      (p.calls cs .empty).1 = cs.map (fun c => (p.call c .empty).1) ∧
      ∀ depth strategy t v, .trying depth strategy t v ∈ (p.calls cs .empty).2.events →
        depth < p.maxDepth := by
  refine ⟨fun before _ _ => (p.calls_eq before .empty rfl).2.depth, ?_, ?_⟩
  · rw [(p.calls_eq cs .empty rfl).1]
    exact List.map_congr_left fun c _ => (p.call_eq c .empty rfl).1.symm
  · intro depth strategy t v he
    exact ((p.calls_eq cs .empty rfl).2.events _ he).resolve_left (List.not_mem_nil)

def shallow : Pipeline Float := { strategies := Strategy.standard, maxDepth := 1 }

/-- Calls that fail for want of a level, of a variable and of a finite
number, and one that selects. -/
def failures : List (Call Float) :=
  [⟨.integrate, .tree (.binary .add (.var "x") (.var "x")), .text "x"⟩,
    ⟨.attempt, .text "x", .whole 3⟩,
    ⟨.integrate, .real (0 / 0), .text "x"⟩,
    ⟨.select, .tree (.binary .add (.var "x") (.var "x")), .text "x"⟩]

/-- After these calls the counter is zero, and `x` is integrated as if there
had been none. -/
theorem calls_answer_as_fresh_failures :
    (shallow.calls failures .empty).2.depth = 0 ∧
      (shallow.calls (failures ++ [⟨.integrate, .text "x", .text "x"⟩]) .empty).1.getLast? =
        some (.ok (.antiderivative (powerQuotient "x" 2))) ∧
      (.trying 1 "Power Rule" (.var "x") "x") ∉ (shallow.calls failures .empty).2.events := by
  obtain ⟨hdepth, -, hevents⟩ := calls_answer_as_fresh shallow failures
  obtain ⟨-, hreplies, -⟩ :=
    calls_answer_as_fresh shallow (failures ++ [⟨.integrate, .text "x", .text "x"⟩])
  refine ⟨hdepth failures [] (List.append_nil _).symm, ?_, fun h => ?_⟩
  · rw [hreplies, List.map_append, List.map_singleton, List.getLast?_concat]
    rfl
  · exact absurd (hevents _ _ _ _ h) (by decide)

end Pipeline

end Fluxion
