/-
What a result that may fail is made of: the value and the fault of a map
or a bind, of a literal that is refused unless it is finite, and of an
evaluation. An evaluation reads variables from left to right and stops at
the first one that is not bound (`reports_value`); nothing else keeps the
kernels from a value.
-/
import Fluxion.Evaluation

namespace Fluxion

theorem map_eq_ok {ε β γ : Type} {x : Except ε β} {f : β → γ} {c : γ} :
    x.map f = .ok c ↔ ∃ b, x = .ok b ∧ f b = c := by
  cases x <;> simp [Except.map]

theorem map_eq_error {ε β γ : Type} {x : Except ε β} {f : β → γ} {e : ε} :
    x.map f = .error e ↔ x = .error e := by
  cases x <;> simp [Except.map]

theorem bind_eq_ok {ε β γ : Type} {x : Except ε β} {f : β → Except ε γ} {c : γ} :
    (x >>= f) = .ok c ↔ ∃ b, x = .ok b ∧ f b = .ok c := by
  cases x <;> simp [bind, Except.bind]

theorem bind_eq_error {ε β γ : Type} {x : Except ε β} {f : β → Except ε γ} {e : ε} :
    (x >>= f) = .error e ↔ x = .error e ∨ ∃ b, x = .ok b ∧ f b = .error e := by
  cases x <;> simp [bind, Except.bind]

namespace Tree

variable {α : Type} [Scalar α]

theorem literal_eq_ok {a : α} {t : Tree α} :
    literal a = .ok t ↔ Scalar.isFinite a = true ∧ .const a = t := by
  unfold literal
  split <;> simp_all

theorem literal_eq_error {a : α} {e : Fault α} :
    literal a = .error e ↔ Scalar.isFinite a = false ∧ e = .notFinite a := by
  unfold literal
  split
  · next h => simp [h]
  · next h => simp [h, eq_comm]

/-! ## Variables without a value -/

/-- The variables that an evaluation comes to, from left to right: of a
conditional those of the test and of the branch that the test selects. -/
def reads (env : Environment α) : Tree α → List String
  | .var x => [x]
  | .const _ => []
  | .binary _ l r | .relate _ l r => l.reads env ++ r.reads env
  | .unary _ u => u.reads env
  | .branch c t f =>
    c.reads env ++
      match c.value env with
      | .ok a => if Scalar.holds .ne a Scalar.zero then t.reads env else f.reads env
      | .error _ => []

omit [Scalar α] in
/-- What comes of reading names one after the other: a number if all of
them are bound, and otherwise the first that is not is reported. -/
inductive Reports (env : Environment α) : List String → Except (Fault α) α → Prop
  | number {xs : List String} (h : ∀ x ∈ xs, ∃ b, env.get? x = some b) (a : α) :
      Reports env xs (.ok a)
  | unbound {before : List String} {x : String} (h : ∀ y ∈ before, ∃ b, env.get? y = some b)
      (hx : env.get? x = none) (after : List String) :
      Reports env (before ++ x :: after) (.error (.unbound x))

section Reports

variable {env : Environment α} {t : Tree α} {xs ys : List String} {r : Except (Fault α) α}

omit [Scalar α] in
/-- One computation after another reads the names of both. -/
theorem Reports.bind {k : α → Except (Fault α) α} (h : Reports env xs r)
    (hk : ∀ a, r = .ok a → Reports env ys (k a)) : Reports env (xs ++ ys) (r >>= k) := by
  cases h with
  | number hxs a =>
    have hka : Reports env ys (k a) := hk a rfl
    have hbind : (Except.ok a >>= k) = k a := rfl
    rw [hbind]
    generalize k a = s at hka
    cases hka with
    | number hys b => exact .number (List.forall_mem_append.mpr ⟨hxs, hys⟩) b
    | unbound hbefore hx after =>
      rw [← List.append_assoc]
      exact .unbound (List.forall_mem_append.mpr ⟨hxs, hbefore⟩) hx after
  | unbound hbefore hx after =>
    rw [List.append_assoc]
    exact .unbound hbefore hx (after ++ ys)

omit [Scalar α] in
/-- A kernel is total: it reads no names and always has a result. -/
theorem Reports.kernel {f : α → α} (h : Reports env xs r) :
    Reports env xs (r >>= fun a => .ok (f a)) := by
  have hnone : Reports env (xs ++ []) (r >>= fun a => .ok (f a)) :=
    h.bind fun a _ => .number (by simp) (f a)
  rwa [List.append_nil] at hnone

/-- By induction on the tree; operands are evaluated from left to right. -/
theorem reports_value (env : Environment α) (t : Tree α) :
    Reports env (t.reads env) (t.value env) := by
  induction t with
  | var x =>
    rw [value]
    split
    · next a ha => exact .number (by simp [reads, ha]) a
    · next hx => exact .unbound (List.forall_mem_nil _) hx []
  | const a => exact .number (by simp [reads]) a
  | binary op l r hl hr => exact hl.bind fun _ _ => hr.kernel
  | unary op u hu => exact hu.kernel
  | relate rel l r hl hr => exact hl.bind fun _ _ => hr.kernel
  | branch c t f hc ht hf =>
    refine hc.bind fun a ha => ?_
    simp only [ha]
    split
    · exact ht
    · exact hf

theorem mem_names_of_mem_reads {x : String} (h : x ∈ t.reads env) : x ∈ t.names := by
  induction t with
  | var y => exact h
  | const a => exact h
  | binary op l r hl hr => exact List.mem_append.mpr ((List.mem_append.mp h).imp hl hr)
  | unary op u hu => exact hu h
  | relate rel l r hl hr => exact List.mem_append.mpr ((List.mem_append.mp h).imp hl hr)
  | branch c t f hc ht hf =>
    simp only [names, List.mem_append]
    rcases List.mem_append.mp h with h | h
    · exact .inl (.inl (hc h))
    split at h
    · split at h
      · exact .inl (.inr (ht h))
      · exact .inr (hf h)
    · cases h

theorem exists_unbound {e : Fault α} (h : t.value env = .error e) :
    ∃ x ∈ t.names, env.get? x = none ∧ e = .unbound x := by
  have hreports := reports_value env t
  rw [h] at hreports
  generalize hxs : t.reads env = xs at hreports
  cases hreports with
  | @unbound before x _ hx after =>
    have hmem : x ∈ t.reads env := by simp [hxs]
    exact ⟨x, mem_names_of_mem_reads hmem, hx, rfl⟩

theorem value_eq_error {e : Fault α} (h : t.value env = .error e) : ∃ x, e = .unbound x := by
  obtain ⟨x, -, -, rfl⟩ := exists_unbound h
  exact ⟨x, rfl⟩

end Reports

/-! ## Evaluation -/

variable {env : Environment α} {t : Tree α}

theorem evaluate_eq_ok {a : α} :
    t.evaluate env = .ok a ↔ t.value env = .ok a ∧ Scalar.isFinite a = true := by
  unfold evaluate
  rw [bind_eq_ok]
  constructor
  · rintro ⟨b, hb, h⟩
    split at h
    · next hfin => cases h; exact ⟨hb, hfin⟩
    · cases h
  · rintro ⟨ha, hfin⟩
    exact ⟨a, ha, if_pos hfin⟩

/-- An evaluation fails at a variable of the tree that is not bound, or for
want of a value of the whole. -/
theorem evaluate_eq_error {e : Fault α} (h : t.evaluate env = .error e) :
    e = .undefined t ∨ ∃ x ∈ t.names, env.get? x = none ∧ e = .unbound x := by
  rcases bind_eq_error.mp h with h | ⟨a, -, h⟩
  · exact .inr (exists_unbound h)
  · split at h <;> cases h
    exact .inl rfl

theorem noValue_of_evaluate {e : Fault α} (h : t.evaluate env = .error e) : e.noValue = true := by
  rcases evaluate_eq_error h with rfl | ⟨x, -, -, rfl⟩
  · rfl
  · rfl

end Tree

end Fluxion
