/-
Undefined values inside an evaluation. Only the final result is refused
when it is not finite, so an undefined value on the way has to reach it.
It does not when a node above it turns it into a finite one: along the
path from the root there is a first node that is finite although an
operand it evaluates is not (`exists_lost`).

In double precision these nodes are few. Sums, differences, products,
opposites and square roots are not among them; a quotient is when its
divisor is infinite, and powers, functions, comparisons and conditionals
can be (`swallows_iff`).
-/
import Fluxion.Evaluation
import Fluxion.Proofs.Double.Flow
import Fluxion.Proofs.Fault

namespace Fluxion.Tree

section

variable {α : Type} [Scalar α] {env : Environment α} {t u : Tree α}

/-! ## Values -/

def FiniteAt (env : Environment α) (t : Tree α) : Prop :=
  ∃ a, t.value env = .ok a ∧ Scalar.isFinite a = true

def UndefinedAt (env : Environment α) (t : Tree α) : Prop :=
  ∃ a, t.value env = .ok a ∧ Scalar.isFinite a = false

/-- Every variable has a value. -/
def BoundBy (env : Environment α) (t : Tree α) : Prop :=
  ∀ x ∈ t.names, ∃ a, env.get? x = some a

theorem UndefinedAt.not_finiteAt (h : t.UndefinedAt env) : ¬t.FiniteAt env := by
  rintro ⟨a, ha, hfin⟩
  obtain ⟨b, hb, hinf⟩ := h
  rw [ha] at hb
  cases hb
  rw [hfin] at hinf
  cases hinf

theorem value_branch {c f : Tree α} {a : α} (h : c.value env = .ok a) :
    (branch c t f).value env =
      if Scalar.holds .ne a Scalar.zero then t.value env else f.value env := by
  rw [value, h]
  rfl

/-- A kernel is total, so a tree whose variables are bound has a value. -/
theorem BoundBy.value_eq_ok (h : t.BoundBy env) : ∃ a, t.value env = .ok a := by
  cases hvalue : t.value env with
  | ok a => exact ⟨a, rfl⟩
  | error e =>
    obtain ⟨x, hx, hnone, -⟩ := exists_unbound hvalue
    obtain ⟨a, ha⟩ := h x hx
    rw [hnone] at ha
    cases ha

theorem BoundBy.finiteAt_or (h : t.BoundBy env) : t.FiniteAt env ∨ t.UndefinedAt env := by
  obtain ⟨a, ha⟩ := h.value_eq_ok
  cases hfin : Scalar.isFinite a with
  | true => exact .inl ⟨a, ha, hfin⟩
  | false => exact .inr ⟨a, ha, hfin⟩

theorem evaluate_eq_undefined (h : t.UndefinedAt env) :
    t.evaluate env = .error (.undefined t) := by
  obtain ⟨a, ha, hinf⟩ := h
  rw [evaluate, ha]
  simp [bind, Except.bind, hinf]

theorem FiniteAt.evaluate_ne_error (h : t.FiniteAt env) {e : Fault α} :
    t.evaluate env ≠ .error e := by
  obtain ⟨a, ha, hfin⟩ := h
  rw [evaluate, ha]
  simp [bind, Except.bind, hfin]

/-! ## What evaluation reaches -/

/-- The value of the node is computed from that of this operand. -/
inductive Evaluates (env : Environment α) : Tree α → Tree α → Prop
  | left (op : BinaryOp) (l r : Tree α) : Evaluates env (.binary op l r) l
  | right (op : BinaryOp) (l r : Tree α) : Evaluates env (.binary op l r) r
  | operand (op : UnaryOp) (u : Tree α) : Evaluates env (.unary op u) u
  | leftSide (rel : Relation) (l r : Tree α) : Evaluates env (.relate rel l r) l
  | rightSide (rel : Relation) (l r : Tree α) : Evaluates env (.relate rel l r) r
  | test (c t f : Tree α) : Evaluates env (.branch c t f) c
  | yes {c : Tree α} (t f : Tree α) {a : α} (hc : c.value env = .ok a)
      (h : Scalar.holds .ne a Scalar.zero = true) : Evaluates env (.branch c t f) t
  | no {c : Tree α} (t f : Tree α) {a : α} (hc : c.value env = .ok a)
      (h : Scalar.holds .ne a Scalar.zero = false) : Evaluates env (.branch c t f) f

/-- Every subtree but those inside a branch that is not taken. -/
def Reaches (env : Environment α) : Tree α → Tree α → Prop :=
  Relation.ReflTransGen (Evaluates env)

theorem Evaluates.boundBy (h : Evaluates env t u) (ht : t.BoundBy env) : u.BoundBy env := by
  intro x hx
  cases h <;> exact ht x (by simp [names, hx])

/-- A finite tree that reaches an undefined one reaches a node that is
finite itself, but has an undefined operand. -/
theorem exists_lost (h : Reaches env t u) (hbound : t.BoundBy env) (ht : t.FiniteAt env)
    (hu : u.UndefinedAt env) : ∃ n m, Reaches env t n ∧ Evaluates env n m ∧ n.FiniteAt env ∧
      m.UndefinedAt env := by
  induction h using Relation.ReflTransGen.head_induction_on with
  | refl => exact absurd ht hu.not_finiteAt
  | @head t s hts _ ih =>
    have hs : s.BoundBy env := hts.boundBy hbound
    rcases hs.finiteAt_or with hfin | hundef
    · obtain ⟨n, m, hn, hm⟩ := ih hs hfin
      exact ⟨n, m, .head hts hn, hm⟩
    · exact ⟨t, s, .refl, hts, ht, hundef⟩

end

/-! ## Double precision -/

section Double

variable {env : Environment Float} {n : Tree Float}

/-- The node is finite although an operand it evaluates is not. -/
inductive Swallows (env : Environment Float) : Tree Float → Prop
  /-- The quotient of a finite number and an infinity is zero. -/
  | quotient {l r : Tree Float} {b : Float} (hl : l.FiniteAt env) (hr : r.value env = .ok b)
      (hb : b.isInf = true) : Swallows env (.binary .div l r)
  | power {l r : Tree Float} (h : (binary .pow l r).FiniteAt env)
      (hu : l.UndefinedAt env ∨ r.UndefinedAt env) : Swallows env (.binary .pow l r)
  | function {op : UnaryOp} {u : Tree Float} (hneg : op ≠ .neg) (hsqrt : op ≠ .sqrt)
      (h : (unary op u).FiniteAt env) (hu : u.UndefinedAt env) : Swallows env (.unary op u)
  | comparison {rel : Relation} {l r : Tree Float} (h : (relate rel l r).FiniteAt env)
      (hu : l.UndefinedAt env ∨ r.UndefinedAt env) : Swallows env (.relate rel l r)
  | conditional {c t f : Tree Float} (h : (branch c t f).FiniteAt env)
      (hc : c.UndefinedAt env) : Swallows env (.branch c t f)

theorem finiteAt_binary {op : BinaryOp} {l r : Tree Float} (h : (binary op l r).FiniteAt env) :
    ∃ a b, l.value env = .ok a ∧ r.value env = .ok b ∧
      (Double.binary op a b).isFinite = true := by
  obtain ⟨d, hd, hfin⟩ := h
  obtain ⟨a, ha, hd⟩ := bind_eq_ok.mp hd
  obtain ⟨b, hb, hd⟩ := bind_eq_ok.mp hd
  cases hd
  exact ⟨a, b, ha, hb, hfin⟩

theorem finiteAt_unary {op : UnaryOp} {u : Tree Float} (h : (unary op u).FiniteAt env) :
    ∃ a, u.value env = .ok a ∧ (Double.unary op a).isFinite = true := by
  obtain ⟨d, hd, hfin⟩ := h
  obtain ⟨a, ha, hd⟩ := bind_eq_ok.mp hd
  cases hd
  exact ⟨a, ha, hfin⟩

theorem swallows_of_binary {op : BinaryOp} {l r : Tree Float}
    (h : (binary op l r).FiniteAt env) (hu : l.UndefinedAt env ∨ r.UndefinedAt env) :
    Swallows env (.binary op l r) := by
  by_cases hpow : op = .pow
  · subst hpow
    exact .power h hu
  obtain ⟨a, b, ha, hb, hfin⟩ := finiteAt_binary h
  by_cases hdiv : op = .div
  · subst hdiv
    obtain ⟨hfa, hfb⟩ := Double.isFinite_of_quotient hfin
    have hl : l.FiniteAt env := ⟨a, ha, hfa⟩
    have hr : r.UndefinedAt env := hu.resolve_left fun hl' => hl'.not_finiteAt hl
    exact .quotient hl hb (hfb.resolve_left fun hfb => hr.not_finiteAt ⟨b, hb, hfb⟩)
  · obtain ⟨hfa, hfb⟩ := Double.isFinite_of_binary hdiv hpow hfin
    rcases hu with hl | hr
    · exact absurd ⟨a, ha, hfa⟩ hl.not_finiteAt
    · exact absurd ⟨b, hb, hfb⟩ hr.not_finiteAt

theorem swallows_of_unary {op : UnaryOp} {u : Tree Float} (h : (unary op u).FiniteAt env)
    (hu : u.UndefinedAt env) : Swallows env (.unary op u) := by
  obtain ⟨a, ha, hfin⟩ := finiteAt_unary h
  have hop (h : op = .neg ∨ op = .sqrt) : False :=
    hu.not_finiteAt ⟨a, ha, Double.isFinite_of_unary h hfin⟩
  exact .function (fun h => hop (.inl h)) (fun h => hop (.inr h)) h hu

theorem swallows_iff : Swallows env n ↔
    n.FiniteAt env ∧ ∃ m, Evaluates env n m ∧ m.UndefinedAt env := by
  constructor
  · intro h
    cases h with
    | @quotient l r b hl hr hb =>
      obtain ⟨a, ha, hfa⟩ := hl
      have hinf : b.isFinite = false := Double.isFinite_of_isInf hb
      have hval : (binary .div l r).value env = .ok (Double.binary .div a b) := by
        rw [value, ha, hr]; rfl
      exact ⟨⟨_, hval, Double.isFinite_quotient_infinite hfa hb⟩, r, .right _ _ _, b, hr, hinf⟩
    | power h hu =>
      exact ⟨h, hu.elim (fun hl => ⟨_, .left _ _ _, hl⟩) fun hr => ⟨_, .right _ _ _, hr⟩⟩
    | function hneg hsqrt h hu => exact ⟨h, _, .operand _ _, hu⟩
    | comparison h hu =>
      exact ⟨h, hu.elim (fun hl => ⟨_, .leftSide _ _ _, hl⟩) fun hr => ⟨_, .rightSide _ _ _, hr⟩⟩
    | conditional h hc => exact ⟨h, _, .test _ _ _, hc⟩
  · rintro ⟨h, m, hm, hu⟩
    cases hm with
    | left op l r => exact swallows_of_binary h (.inl hu)
    | right op l r => exact swallows_of_binary h (.inr hu)
    | operand op u => exact swallows_of_unary h hu
    | leftSide rel l r => exact .comparison h (.inl hu)
    | rightSide rel l r => exact .comparison h (.inr hu)
    | test c t f => exact .conditional h hu
    | yes t f hc hne =>
      -- the taken branch gives the conditional its value
      obtain ⟨a, ha, hfin⟩ := h
      rw [value_branch hc, if_pos hne] at ha
      exact absurd ⟨a, ha, hfin⟩ hu.not_finiteAt
    | no t f hc hne =>
      obtain ⟨a, ha, hfin⟩ := h
      rw [value_branch hc, if_neg (by rw [hne]; exact Bool.false_ne_true)] at ha
      exact absurd ⟨a, ha, hfin⟩ hu.not_finiteAt

/-- **Where undefined values are lost.** For bound variables, the undefined
values that evaluation reaches make it raise an error, unless the final
value is finite and evaluation reaches a node that swallows one. -/
theorem undefined_raises_iff (t : Tree Float) (env : Environment Float) (hbound : t.BoundBy env) :
    ((∃ u, Reaches env t u ∧ u.UndefinedAt env) → t.evaluate env = .error (.undefined t)) ↔
      ¬(t.FiniteAt env ∧ ∃ n, Reaches env t n ∧ Swallows env n) := by
  constructor
  · rintro h ⟨hfin, n, hn, hswallows⟩
    obtain ⟨-, m, hm, hu⟩ := swallows_iff.mp hswallows
    exact hfin.evaluate_ne_error (h ⟨m, hn.tail hm, hu⟩)
  · rintro h ⟨u, hreach, hu⟩
    rcases hbound.finiteAt_or with hfin | hundef
    · obtain ⟨n, m, hn, hm, hnfin, hmu⟩ := exists_lost hreach hbound hfin hu
      exact absurd ⟨hfin, n, hn, swallows_iff.mpr ⟨hnfin, m, hm, hmu⟩⟩ h
    · exact evaluate_eq_undefined hundef

def reciprocal : Tree Float := .binary .div (.const 1) (.var "x")

theorem undefinedAt_reciprocal : reciprocal.UndefinedAt [("x", 0)] := ⟨1 / 0, rfl, rfl⟩

/-- `x * (1 / x)` at zero: the product does not swallow the quotient. -/
theorem undefined_raises_mul_reciprocal :
    (binary .mul (.var "x") reciprocal).BoundBy [("x", 0)] ∧
      (binary .mul (.var "x") reciprocal).evaluate [("x", 0)] =
        .error (.undefined (.binary .mul (.var "x") reciprocal)) := by
  have hbound : (binary .mul (.var "x") reciprocal).BoundBy [("x", 0)] := by
    intro x hx
    obtain rfl : x = "x" := by simpa [names, reciprocal] using hx
    exact ⟨0, rfl⟩
  have hnan : (binary .mul (.var "x") reciprocal).UndefinedAt [("x", 0)] := ⟨0 * (1 / 0), rfl, rfl⟩
  refine ⟨hbound, (undefined_raises_iff _ _ hbound).mpr ?_
    ⟨reciprocal, .single (.right _ _ _), undefinedAt_reciprocal⟩⟩
  rintro ⟨hfin, -⟩
  exact hnan.not_finiteAt hfin

/-- `1 / (1 / x)` at zero is zero: the inner quotient is infinite and the
outer one swallows it. -/
theorem nested_reciprocal_no_error :
    Reaches [("x", 0)] (binary .div (.const 1) reciprocal) reciprocal ∧
      reciprocal.UndefinedAt [("x", 0)] ∧
      (binary .div (.const 1) reciprocal).evaluate [("x", 0)] = .ok 0 ∧
      ¬((∃ u, Reaches [("x", 0)] (binary .div (.const 1) reciprocal) u ∧
          u.UndefinedAt [("x", 0)]) →
        (binary .div (.const 1) reciprocal).evaluate [("x", 0)] =
          .error (.undefined (.binary .div (.const 1) reciprocal))) := by
  have hreach : Reaches [("x", 0)] (binary .div (.const 1) reciprocal) reciprocal :=
    .single (.right _ _ _)
  have hzero : (binary .div (.const 1) reciprocal).evaluate [("x", 0)] = .ok 0 := rfl
  refine ⟨hreach, undefinedAt_reciprocal, hzero, fun h => ?_⟩
  have herr := h ⟨reciprocal, hreach, undefinedAt_reciprocal⟩
  rw [hzero] at herr
  cases herr

end Double

end Fluxion.Tree
