/-
The search for an antiderivative ends by itself. For every integrand there
is a number of levels that the search does not come to the end of; with
that many or more the outcome is always the same (`exists_same_outcome`).

Strategies ask for operands of the integrand, which are smaller, with one
exception. Integration by parts asks for a product it has put together,
and that product can be larger than the integrand. But it is, up to a
coefficient, a function times a power of `v` whose exponent is one less
than before, so what decreases is the exponent (`endsWithin_mul_power`).

Of the numbers only this is needed: the exponents are computed exactly, so
that one less is one less. Other numbers may be rounded, and may overflow.
-/
import Fluxion.Proofs.Exact.Spelling
import Fluxion.Proofs.Integral.Question
import Fluxion.Proofs.Tree.Residue

namespace Fluxion

/-- Numbers that are exact as exponents: every finite one stands for a
degree, lowering it by one lowers the degree by one, and a number above
zero has a degree above zero. -/
class ExactExponents (α : Type) [Scalar α] where
  degree : α → ℝ
  isFinite_sub_one {a : α} (h : Scalar.isFinite a = true) :
    Scalar.isFinite (Scalar.sub a Scalar.one) = true
  degree_sub_one {a : α} (h : Scalar.isFinite a = true) :
    degree (Scalar.sub a Scalar.one) = degree a - 1
  degree_pos {a : α} (h : Scalar.isFinite a = true) (h₀ : Scalar.gt a Scalar.zero = true) :
    0 < degree a
  one_eq_one : Scalar.eq (Scalar.one : α) Scalar.one = true
  one_ne_zero : Scalar.eq (Scalar.one : α) Scalar.zero = false

/-- Numbers that are exact altogether are exact as exponents. -/
noncomputable instance {α : Type} [Scalar α] [Exact α ℝ] : ExactExponents α where
  degree a := (Exact.reading a : Option ℝ).getD 0
  isFinite_sub_one h := Steady.isFinite_sub_one h
  degree_sub_one h := by
    obtain ⟨x, hx⟩ := Exact.reading_of_isFinite h
    rw [hx, Exact.reading_sub hx Exact.reading_one]
    rfl
  degree_pos h h₀ := by
    obtain ⟨x, hx⟩ := Exact.reading_of_isFinite h
    have hgt : Relation.gt.exact x 0 = true := by
      rw [← Exact.holds_eq hx Exact.reading_zero]
      exact h₀
    rw [hx]
    simpa [Relation.exact] using hgt
  one_eq_one := (Exact.eq_iff Exact.reading_one Exact.reading_one).mpr rfl
  one_ne_zero := by
    rw [Bool.eq_false_iff, ne_eq, Exact.eq_iff Exact.reading_one Exact.reading_zero]
    exact one_ne_zero

variable {α : Type} [Scalar α]

/-! ## The derivative of a power -/

namespace Tree

variable {v : String}

theorem derivative_power (a : α) : (Tree.binary .pow (.var v) (.const a)).derivative v =
    .binary .mul (.binary .mul (.const a)
      (.binary .pow (.var v) (.const (Scalar.sub a Scalar.one)))) one := by
  simp [derivative, binaryRule, powerRule, mentions, lowered]

theorem residues_unfoldedProduct (a b : α) : residues [unfoldedProduct a b] = [] := by
  unfold unfoldedProduct negate
  split
  · rfl
  split
  · rfl
  split
  · rfl
  split
  · rfl
  · simp

theorem residues_simplify_literals (a b : α) :
    residues [simplifyBinary .mul (.const a) (.const b)] = [] := by
  unfold simplifyBinary
  dsimp only
  split
  · rfl
  · next hfold =>
    rw [combine, product, scale, hfold]
    exact residues_unfoldedProduct a b

variable [ExactExponents α]

theorem scale_one {t : Tree α} (h : t.kind ≠ .constant) : scale Scalar.one t = t := by
  cases t with
  | const a => exact absurd rfl h
  | binary op l r =>
    unfold scale
    split
    · next heq => cases heq
    · next heq => simp [heq, ExactExponents.one_ne_zero, ExactExponents.one_eq_one]
    · simp [ExactExponents.one_ne_zero, ExactExponents.one_eq_one]
  | _ => simp [scale, ExactExponents.one_ne_zero, ExactExponents.one_eq_one]

/-- A factor of one leaves what it leaves. -/
theorem residues_simplify_mul_one (t : Tree α) :
    residues [simplifyBinary .mul t one] = residues [t] := by
  have other (h : t.kind ≠ .constant) (hs : simplifyBinary .mul t one = scale Scalar.one t) :
      residues [simplifyBinary .mul t one] = residues [t] := by rw [hs, scale_one h]
  cases t with
  | const a => exact residues_simplify_literals a Scalar.one
  | _ => exact other (by simp [kind]) rfl

omit [ExactExponents α] in
/-- A literal in front leaves what the other factor leaves, if anything. -/
theorem residues_simplify_scale {t : Tree α} (a : α) (ht : t.factors = [t])
    (hneg : ∀ u, t ≠ .unary .neg u) :
    residues [simplifyBinary .mul (.const a) t] = [] ∨
      residues [simplifyBinary .mul (.const a) t] = residues [t] := by
  have negated : negate t = .unary .neg t ∨ ∃ b, t = .const b := by
    unfold negate
    split
    · exact absurd rfl (hneg _)
    · exact .inr ⟨_, rfl⟩
    · exact .inl rfl
  rcases negated with negated | ⟨b, rfl⟩
  · have hscale : simplifyBinary .mul (.const a) t = scale a t := by
      cases t with
      | const b => cases negated
      | _ => rfl
    rw [hscale]
    unfold scale
    split
    · cases negated
    · next heq => simp [factors] at ht
    · split
      · exact .inl rfl
      split
      · exact .inr rfl
      split
      · rw [negated, residues_neg ht]; exact .inr rfl
      · rw [residues_mul, residues_const]; exact .inr rfl
  · exact .inl (residues_simplify_literals a b)

/-- `v`, or `v ^ b` with a literal exponent of degree at most `k`. -/
inductive Falls (v : String) (k : Nat) : Tree α → Prop
  | base : Falls v k (.var v)
  | power {b : α} (hb : Scalar.isFinite b = true) (hk : ExactExponents.degree b ≤ k) :
      Falls v k (.binary .pow (.var v) (.const b))

/-- The derivative of a power leaves no factor or a power of lower
degree. -/
theorem residues_derivative_power {a : α} {k : Nat} (ha : Scalar.isFinite a = true)
    (hk : ExactExponents.degree a ≤ k + 1) :
    residues [((Tree.binary .pow (.var v) (.const a)).derivative v).simplify] = [] ∨
      ∃ P, Falls v k P ∧
        residues [((Tree.binary .pow (.var v) (.const a)).derivative v).simplify] = [P] := by
  rw [derivative_power]
  simp only [simplify, one]
  rw [← one, residues_simplify_mul_one]
  have hpower : simplifyBinary .pow (.var v) (.const (Scalar.sub a Scalar.one)) = one ∨
      Falls v k (simplifyBinary .pow (.var v) (.const (Scalar.sub a Scalar.one))) := by
    simp only [simplifyBinary, combine, power]
    split
    · exact .inl rfl
    split
    · exact .inr .base
    split
    · exact .inl rfl
    · refine .inr (.power (ExactExponents.isFinite_sub_one ha) ?_)
      rw [ExactExponents.degree_sub_one ha]
      linarith
  rcases hpower with hone | hfalls
  · rw [hone]; exact .inl (residues_simplify_literals a Scalar.one)
  · generalize simplifyBinary .pow (.var v) (.const (Scalar.sub a Scalar.one)) = P at hfalls ⊢
    cases hfalls with
    | base =>
      refine (residues_simplify_scale a rfl fun _ h => by cases h).imp_right fun h => ⟨_, .base, ?_⟩
      rw [h]; rfl
    | power hb hk =>
      refine (residues_simplify_scale a rfl fun _ h => by cases h).imp_right fun h =>
        ⟨_, .power hb hk, ?_⟩
      rw [h]; rfl

omit [ExactExponents α] in
theorem residues_derivative_var :
    residues [((Tree.var v : Tree α).derivative v).simplify] = [] := by
  simp [derivative, simplify, one]

end Tree

/-! ## The product that integration by parts is left with -/

namespace Strategy

variable [Numeral α] {sub : Tree α → Except (Fault α) (Tree α)} {v : String}

omit [Numeral α] in
theorem residues_scaledBy {op : UnaryOp} {u g w : Tree α} {k : α}
    (hg : outerAntiderivative? op u = some g) (hw : scaledBy k g = .ok w) :
    ∃ op' u', op' ≠ .neg ∧ Tree.residues [w] = [.unary op' u'] := by
  have hres : ∃ op' u', op' ≠ .neg ∧ Tree.residues [g] = [.unary op' u'] := by
    cases op <;> simp only [outerAntiderivative?, Option.some.injEq, reduceCtorEq] at hg
    · subst hg
      exact ⟨.cos, u, by decide, by rw [Tree.residues_neg rfl, Tree.residues_function (by decide)]⟩
    · subst hg
      exact ⟨.sin, u, by decide, Tree.residues_function (by decide) u⟩
    · subst hg
      exact ⟨.exp, u, by decide, Tree.residues_function (by decide) u⟩
  unfold scaledBy at hw
  split at hw
  · cases hw; exact hres
  · obtain ⟨c, hc, rfl⟩ := map_eq_ok.mp hw
    obtain ⟨-, rfl⟩ := Tree.literal_eq_ok.mp hc
    simpa using hres

/-- The antiderivative of a function is a function, up to a sign and a
literal factor. -/
theorem residues_of_finds {s : Strategy α} {dv w : Tree α} (hdv : dv.isIntegrableFactor v = true)
    (h : s.Finds sub v dv w) : ∃ op u, op ≠ .neg ∧ Tree.residues [w] = [.unary op u] := by
  obtain ⟨op, u, rfl, hop, hu⟩ := eq_unary_of_isIntegrableFactor hdv
  cases h with
  | constant hc => rw [Tree.mentions, hu] at hc; cases hc
  | sin => exact ⟨.cos, .var v, by decide, rfl⟩
  | cos => exact ⟨.sin, .var v, by decide, rfl⟩
  | exp => exact ⟨.exp, .var v, by decide, rfl⟩
  | neg hw => exact absurd rfl hop
  | substitution hfactors hg hc hk hF => exact residues_scaledBy hg hF
  | parts ht => rcases ht with h | h <;> cases h

end Strategy

/-! ## Levels that suffice -/

namespace Pipeline

variable [Numeral α] {ss : List (Strategy α)} {v : String} {t : Tree α} {D E : Nat}

/-- With the strategies `ss` and `D` levels or more the search does not come
to the limit. -/
def EndsWithin (ss : List (Strategy α)) (v : String) (D : Nat) (t : Tree α) : Prop :=
  ∀ ⦃p : Pipeline α⦄ ⦃n : Nat⦄, p.strategies = ss → D ≤ n → ¬p.Exhausts v n t

theorem EndsWithin.mono (h : EndsWithin ss v D t) (hDE : D ≤ E) : EndsWithin ss v E t :=
  fun _ _ hp hn => h hp (hDE.trans hn)

/-- One level more than suffices for what can be asked for. -/
theorem endsWithin_succ
    (h : ∀ (p : Pipeline α) n u, Strategy.Needs (p.run v n) v t u → EndsWithin ss v D u) :
    EndsWithin ss v (D + 1) t := by
  intro p n hp hn hexhausts
  cases hexhausts with
  | here => omega
  | @nested n _ u s hs hask hu =>
    exact h p n u (Strategy.needs_of_asks hask) hp (by omega) hu

theorem endsWithin_of_no_needs (h : ∀ sub x, ¬Strategy.Needs sub v t x) : EndsWithin ss v 1 t :=
  endsWithin_succ fun _ _ _ hu => absurd hu (h _ _)

theorem endsWithin_function {op : UnaryOp} (hop : op ≠ .neg) {u : Tree α} :
    EndsWithin ss v 1 (.unary op u) :=
  endsWithin_of_no_needs fun _ _ => Strategy.not_needs_function hop

theorem EndsWithin.pos (h : EndsWithin ss v D t) : 1 ≤ D := by
  refine Nat.one_le_iff_ne_zero.mpr ?_
  rintro rfl
  exact h (p := ⟨ss, 0, ""⟩) rfl le_rfl (.here t)

theorem endsWithin_const {a : α} : EndsWithin ss v 1 (.const a) := by
  refine endsWithin_of_no_needs fun sub x h => ?_
  cases h

/-- Coefficients and signs in front cost one level. -/
theorem EndsWithin.led {x : Tree α} (h : EndsWithin ss v D t) (hx : t.Led x) :
    EndsWithin ss v (D + 1) x := by
  cases hx with
  | plain => exact h.mono (Nat.le_succ D)
  | signed =>
    refine endsWithin_succ fun p n u hu => ?_
    cases hu
    exact h
  | scaled c =>
    refine endsWithin_succ fun p n u hu => ?_
    cases hu with
    | left => exact endsWithin_const.mono h.pos
    | right => exact h
    | rest h => cases h.isPolynomialLike
    | restReversed h => cases h.isIntegrableFactor

/-- What regrouping makes of a function and what a derivative leaves ends
when their product does. -/
theorem endsWithin_regroup {w d x : Tree α} {op : UnaryOp} {u : Tree α} (hop : op ≠ .neg)
    (hw : Tree.residues [w] = [.unary op u])
    (hd : Tree.residues [d] = [] ∨
      ∃ P, Tree.residues [d] = [P] ∧ EndsWithin ss v D (.binary .mul (.unary op u) P))
    (hD : 1 ≤ D) (hx : Tree.regroup [w, d] = .ok x) : EndsWithin ss v (D + 1) x := by
  have hparts : Tree.residues [w, d] = .unary op u :: Tree.residues [d] := by
    rw [Tree.residues_cons, hw]
    rfl
  have hchain : EndsWithin ss v D (Tree.chain (.unary op u) (Tree.residues [d])) := by
    rcases hd with hd | ⟨P, hd, hmul⟩
    · rw [hd]; exact (endsWithin_function hop).mono hD
    · rw [hd]; exact hmul
  rcases Tree.regroup_cases hparts hx with ⟨a, rfl⟩ | hled
  · exact endsWithin_const.mono (by omega)
  · exact hchain.led hled

variable [ExactExponents α]

theorem endsWithin_falls {P : Tree α} {k : Nat} (hP : Tree.Falls v k P) :
    EndsWithin ss v 1 P := by
  refine endsWithin_of_no_needs fun sub x h => ?_
  cases hP with
  | base => cases h
  | power =>
    cases h with
    | left h => exact h rfl
    | right h => exact h rfl

/-- The product that integration by parts is left with, for the power `P`,
ends as soon as the products with a power of lower degree do. -/
theorem endsWithin_leaves {p : Pipeline α} {P dv x : Tree α} {k n : Nat} (hP : Tree.Falls v k P)
    (hx : Strategy.Leaves (p.run v n) v P dv x) (hD : 1 ≤ D)
    (hmul : ∀ j < k, ∀ op u Q, op ≠ .neg → Tree.Falls v j Q →
      EndsWithin ss v D (.binary .mul (.unary op u) Q)) :
    EndsWithin ss v (D + 1) x := by
  obtain ⟨hpoly, hdv, w, hw, hx⟩ := hx
  obtain ⟨m, s, -, -, hfinds⟩ := finds_of_run hw
  obtain ⟨op, u, hop, hres⟩ := Strategy.residues_of_finds hdv hfinds
  refine endsWithin_regroup hop hres ?_ hD hx
  cases hP with
  | base => exact .inl Tree.residues_derivative_var
  | @power b hb hk =>
    have hpos : 0 < ExactExponents.degree b := by
      simp only [Tree.isPolynomialLike, Bool.and_eq_true] at hpoly
      exact ExactExponents.degree_pos hb hpoly.2.1
    cases k with
    | zero => exact absurd hk (by simpa using hpos)
    | succ j =>
      rw [Nat.cast_succ] at hk
      refine (Tree.residues_derivative_power hb hk).imp_right fun ⟨Q, hQ, hd⟩ => ⟨Q, hd, ?_⟩
      exact hmul j (Nat.lt_succ_self j) op u Q hop hQ

/-- **Integration by parts ends.** A function times a power of degree `k`
needs at most `2 * k + 3` levels: each step lowers the degree by one, and
takes one level for itself and one for the coefficient. -/
theorem endsWithin_mul_power {op : UnaryOp} (hop : op ≠ .neg) {u P : Tree α} {k : Nat}
    (hP : Tree.Falls v k P) : EndsWithin ss v (2 * k + 3) (.binary .mul (.unary op u) P) := by
  induction k using Nat.strong_induction_on generalizing op u P with
  | _ k ih =>
    refine endsWithin_succ fun p n x hx => ?_
    cases hx with
    | left => exact (endsWithin_function hop).mono (by omega)
    | right => exact (endsWithin_falls hP).mono (by omega)
    | rest h => cases h.isPolynomialLike
    | restReversed h =>
      refine endsWithin_leaves hP h (by omega) fun j hj op u Q hop hQ => ?_
      exact (ih j hj hop hQ).mono (by omega)

/-! ## Every integrand -/

omit [Numeral α] in
theorem exists_falls {u : Tree α} (hu : u.AllFinite) (hpoly : u.isPolynomialLike v = true) :
    ∃ k, Tree.Falls v k u := by
  unfold Tree.isPolynomialLike at hpoly
  split at hpoly
  · rw [beq_iff_eq] at hpoly
    subst hpoly
    exact ⟨0, .base⟩
  · next b a =>
    rw [Strategy.eq_var_of_isVariable (Bool.and_eq_true_iff.mp hpoly).1]
    obtain ⟨k, hk⟩ := exists_nat_ge (ExactExponents.degree a)
    exact ⟨k, .power hu.2 hk⟩
  · cases hpoly

/-- For one choice of the power the products that by parts is left with
end within the same number of levels. -/
theorem exists_endsWithin_leaves (ss : List (Strategy α)) (v : String) {u : Tree α}
    (hu : u.AllFinite) :
    ∃ D, ∀ (p : Pipeline α) n dv x, Strategy.Leaves (p.run v n) v u dv x →
      EndsWithin ss v D x := by
  by_cases hpoly : u.isPolynomialLike v = true
  · obtain ⟨k, hk⟩ := exists_falls hu hpoly
    refine ⟨2 * k + 4, fun p n dv x h => ?_⟩
    refine endsWithin_leaves hk h (by omega) fun j hj op y Q hop hQ => ?_
    exact (endsWithin_mul_power hop hQ).mono (by omega)
  · exact ⟨0, fun _ _ _ _ h => absurd h.isPolynomialLike hpoly⟩

/-- **The search ends.** By induction on the integrand. -/
theorem exists_endsWithin (ss : List (Strategy α)) (v : String) (ht : t.AllFinite) :
    ∃ D, EndsWithin ss v D t := by
  induction t with
  | var x =>
    refine ⟨1, endsWithin_of_no_needs fun sub y h => ?_⟩
    cases h
  | const a => exact ⟨1, endsWithin_const⟩
  | unary op u ihu =>
    obtain ⟨D, hD⟩ := ihu ht
    refine ⟨D + 1, endsWithin_succ fun p n y h => ?_⟩
    cases h
    exact hD
  | binary op l r ihl ihr =>
    obtain ⟨Dl, hl⟩ := ihl ht.1
    obtain ⟨Dr, hr⟩ := ihr ht.2
    obtain ⟨El, hel⟩ := exists_endsWithin_leaves ss v ht.1
    obtain ⟨Er, her⟩ := exists_endsWithin_leaves ss v ht.2
    refine ⟨Dl + Dr + El + Er + 1, endsWithin_succ fun p n y h => ?_⟩
    cases h with
    | left => exact hl.mono (by omega)
    | right => exact hr.mono (by omega)
    | rest h => exact (hel p n r y h).mono (by omega)
    | restReversed h => exact (her p n l y h).mono (by omega)
  | relate rel l r =>
    refine ⟨1, endsWithin_of_no_needs fun sub y h => ?_⟩
    cases h
  | branch c t f =>
    refine ⟨1, endsWithin_of_no_needs fun sub y h => ?_⟩
    cases h

omit [ExactExponents α] in
/-- Without coming to the limit, what is found does not depend on how the
limit is worded. -/
theorem run_eq_of_not_exhausts {p q : Pipeline α} {n : Nat} (hpq : p.strategies = q.strategies)
    (h : ¬p.Exhausts v n t) : p.run v n t = q.run v n t := by
  induction n generalizing t with
  | zero => exact absurd (.here t) h
  | succ n ih =>
    have hclaim : claim (p.run v n) v t p.strategies = claim (q.run v n) v t p.strategies :=
      claim_congr fun before _ after hss hbefore u hask =>
        ih fun hu => h (.nested ⟨before, after, hss, hbefore⟩ hask hu)
    rw [run, run, hclaim, hpq]

omit [ExactExponents α] in
/-- More levels than suffice make no difference. -/
theorem EndsWithin.run_eq (h : EndsWithin ss v D t) {p : Pipeline α} {n : Nat}
    (hp : p.strategies = ss) (hn : D ≤ n) : p.run v n t = p.run v D t := by
  induction n, hn using Nat.le_induction with
  | base => rfl
  | succ n hn ih => rw [← run_succ_of_not_exhausts (h hp hn), ih]

/-- **The limit cuts off finitely much.** For every integrand there are a
number of levels and an outcome, an antiderivative or a fault, such that
every pipeline with the given strategies and that many levels or more has
this outcome, and does not come to its limit. -/
theorem exists_same_outcome (ss : List (Strategy α)) (v : String) (ht : t.AllFinite) :
    ∃ D r, ∀ p : Pipeline α, p.strategies = ss → D ≤ p.maxDepth →
      ¬p.Exhausts v p.maxDepth t ∧ p.integrate t v = r := by
  obtain ⟨D, hD⟩ := exists_endsWithin ss v ht
  refine ⟨D, run ⟨ss, D, ""⟩ v D t, fun p hp hd => ⟨hD hp hd, ?_⟩⟩
  rw [integrate, hD.run_eq hp hd]
  exact run_eq_of_not_exhausts hp (hD hp le_rfl)

def squareSin : Tree Closed :=
  .binary .mul (.binary .pow (.var "x") (.const (.integer 2))) (.unary .sin (.var "x"))

/-- `squareSin` takes integration by parts twice. -/
theorem exists_same_outcome_squareSin :
    squareSin.AllFinite ∧
      ∃ D r, ∀ p : Pipeline Closed, p.strategies = Strategy.standard → D ≤ p.maxDepth →
        ¬p.Exhausts "x" p.maxDepth squareSin ∧ p.integrate squareSin "x" = r :=
  have ht : squareSin.AllFinite := ⟨⟨trivial, rfl⟩, trivial⟩
  ⟨ht, exists_same_outcome Strategy.standard "x" ht⟩

end Pipeline

end Fluxion
