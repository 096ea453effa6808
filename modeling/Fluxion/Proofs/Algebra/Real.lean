/-
Real values of forms. A sum or a product has a value where all of its parts
have one, a power and a function where they are defined over the real
numbers. A choice between pieces takes the first whose condition holds: the
conditions up to that one are evaluated, and of the pieces only that one.
-/
import Fluxion.Algebra.Form
import Fluxion.Proofs.Exact.Real

namespace Fluxion.Algebra

/-! ## Numbers -/

theorem Binary.cast_toRat (x : Binary) : (x.toRat : ℝ) = x.m * 2 ^ x.q := by
  unfold Binary.toRat
  split
  · next hq =>
    lift x.q to ℕ using hq with n
    simp
  · next hq =>
    obtain ⟨n, hn⟩ : ∃ n : ℕ, -x.q = n := ⟨(-x.q).toNat, by omega⟩
    have hq : x.q = -n := by omega
    rw [hn, Rat.mkRat_eq_div, hq]
    simp [div_eq_mul_inv]

/-- The real number that a finite number is. -/
noncomputable def Number.real : Number → Option ℝ
  | .exact r => some r
  | .approximate x => some x.toRat
  | .infinite _ | .undefined => none

theorem Number.real_ofInt (n : ℤ) : (ofInt n).real = some (n : ℝ) :=
  congrArg some (Rat.cast_intCast n)

theorem Number.real_neg {a : Number} {x : ℝ} (ha : a.real = some x) : a.neg.real = some (-x) := by
  cases a with
  | exact r =>
    obtain rfl := Option.some.inj ha
    exact congrArg some (Rat.cast_neg r)
  | approximate y =>
    obtain rfl := Option.some.inj ha
    refine congrArg some ?_
    rw [Binary.cast_toRat, Binary.cast_toRat]
    simp [Binary.neg]
  | infinite | undefined => cases ha

theorem Number.isNegative_iff {a : Number} {x : ℝ} (ha : a.real = some x) :
    a.isNegative = true ↔ x < 0 := by
  cases a with
  | exact r =>
    obtain rfl := Option.some.inj ha
    simp [Number.isNegative]
  | approximate y =>
    obtain rfl := Option.some.inj ha
    have hpower : (0 : ℝ) < 2 ^ y.q := zpow_pos two_pos _
    rw [Binary.cast_toRat]
    simp [Number.isNegative, Binary.isNegative, mul_neg_iff, hpower, hpower.not_gt]
  | infinite | undefined => cases ha

/-! ## The first piece whose condition holds -/

/-- The value of the first piece whose condition is not zero, from the
values of pieces and conditions. -/
noncomputable def firstTrue : List (Option ℝ × Option ℝ) → Option ℝ
  | [] => none
  | (x, c) :: rest => do if (← c) = 0 then firstTrue rest else x

theorem firstTrue_cons_eq_some {x c : Option ℝ} {rest : List (Option ℝ × Option ℝ)} {z : ℝ} :
    firstTrue ((x, c) :: rest) = some z ↔
      ∃ y, c = some y ∧ (if y = 0 then firstTrue rest else x) = some z := by
  simp [firstTrue, Option.bind_eq_some_iff]

/-- Pieces whose conditions do not hold are passed over. -/
theorem firstTrue_append {before : List (Option ℝ × Option ℝ)} (x : Option ℝ) {y : ℝ}
    (after : List (Option ℝ × Option ℝ)) (hbefore : ∀ p ∈ before, p.2 = some 0) (hy : y ≠ 0) :
    firstTrue (before ++ (x, some y) :: after) = x := by
  induction before with
  | nil => simp [firstTrue, hy]
  | cons p before ih =>
    obtain ⟨hp, hrest⟩ := List.forall_mem_cons.mp hbefore
    simp [firstTrue, hp, ih hrest]

/-! ## Forms -/

namespace Form

mutual

/-- The value of a form where `κ` gives the named constants and `env` the
symbols. -/
noncomputable def valueAt (κ : Constant → ℝ) (env : String → ℝ) : Form → Option ℝ
  | .number a => a.real
  | .constant c => some (κ c)
  | .symbol x => some (env x)
  | .sum us => ((valuesAt κ env us).mapM id).map List.sum
  | .product us => ((valuesAt κ env us).mapM id).map List.prod
  | .power b e => do
    let x ← valueAt κ env b
    let y ← valueAt κ env e
    Elementary.power x y
  | .call op u => do
    let x ← valueAt κ env u
    op.exact x
  | .relate rel l r => do
    let x ← valueAt κ env l
    let y ← valueAt κ env r
    return if rel.exact x y then 1 else 0
  | .truth b => some (if b then 1 else 0)
  | .cases vs cs => firstTrue ((valuesAt κ env vs).zip (valuesAt κ env cs))
  | .unsigned | .imaginary | .foreign _ _ => none

noncomputable def valuesAt (κ : Constant → ℝ) (env : String → ℝ) : List Form → List (Option ℝ)
  | [] => []
  | u :: us => valueAt κ env u :: valuesAt κ env us

end

variable {κ : Constant → ℝ} {env : String → ℝ} {u v b e l r : Form} {us vs cs : List Form} {x z : ℝ}

theorem valueAt_sum :
    (Form.sum us).valueAt κ env = ((valuesAt κ env us).mapM id).map List.sum := rfl

theorem valueAt_product :
    (Form.product us).valueAt κ env = ((valuesAt κ env us).mapM id).map List.prod := rfl

theorem valueAt_power : (Form.power b e).valueAt κ env = (b.valueAt κ env).bind fun x =>
    (e.valueAt κ env).bind (Elementary.power x) := rfl

theorem valueAt_call (op : UnaryOp) :
    (Form.call op u).valueAt κ env = (u.valueAt κ env).bind op.exact := rfl

theorem valueAt_relate (rel : Relation) : (Form.relate rel l r).valueAt κ env =
    (l.valueAt κ env).bind fun x => (r.valueAt κ env).bind fun y =>
      some (if rel.exact x y then 1 else 0) := rfl

theorem valuesAt_eq (us : List Form) : valuesAt κ env us = us.map (valueAt κ env) := by
  induction us with
  | nil => rfl
  | cons u us ih => exact congrArg (valueAt κ env u :: ·) ih

/-- The forms have these values, one for one. -/
def HaveValues (κ : Constant → ℝ) (env : String → ℝ) : List Form → List ℝ → Prop :=
  List.Forall₂ fun u x => u.valueAt κ env = some x

theorem mapM_valuesAt_eq_some {xs : List ℝ} :
    (valuesAt κ env us).mapM id = some xs ↔ HaveValues κ env us xs := by
  rw [valuesAt_eq]
  induction us generalizing xs with
  | nil => cases xs <;> simp [HaveValues]
  | cons u us ih =>
    cases xs with
    | nil => simp [HaveValues, Option.bind_eq_some_iff]
    | cons x xs =>
      simp only [HaveValues, List.forall₂_cons] at ih ⊢
      rw [← ih]
      simp [Option.bind_eq_some_iff]

theorem valueAt_sum_eq_some :
    (Form.sum us).valueAt κ env = some z ↔ ∃ xs, HaveValues κ env us xs ∧ xs.sum = z := by
  simp [valueAt_sum, mapM_valuesAt_eq_some]

theorem valueAt_product_eq_some :
    (Form.product us).valueAt κ env = some z ↔ ∃ xs, HaveValues κ env us xs ∧ xs.prod = z := by
  simp [valueAt_product, mapM_valuesAt_eq_some]

theorem valueAt_power_eq_some : (Form.power b e).valueAt κ env = some z ↔
    ∃ x y, b.valueAt κ env = some x ∧ e.valueAt κ env = some y ∧
      Elementary.power x y = some z := by
  simp [valueAt_power, Option.bind_eq_some_iff]

theorem valueAt_call_eq_some {op : UnaryOp} : (Form.call op u).valueAt κ env = some z ↔
    ∃ x, u.valueAt κ env = some x ∧ op.exact x = some z := by
  simp [valueAt_call, Option.bind_eq_some_iff]

theorem valueAt_relate_eq_some {rel : Relation} : (Form.relate rel l r).valueAt κ env = some z ↔
    ∃ x y, l.valueAt κ env = some x ∧ r.valueAt κ env = some y ∧
      (if rel.exact x y then 1 else 0) = z := by
  simp [valueAt_relate, Option.bind_eq_some_iff]

/-- The value of a choice between pieces, each with its condition. -/
noncomputable def chosenAt (κ : Constant → ℝ) (env : String → ℝ) (ps : List (Form × Form)) :
    Option ℝ :=
  firstTrue (ps.map fun p => (p.1.valueAt κ env, p.2.valueAt κ env))

theorem valueAt_cases (vs cs : List Form) :
    (Form.cases vs cs).valueAt κ env = chosenAt κ env (vs.zip cs) := by
  have hzip : (Form.cases vs cs).valueAt κ env =
      firstTrue ((valuesAt κ env vs).zip (valuesAt κ env cs)) := rfl
  rw [hzip, valuesAt_eq, valuesAt_eq, List.zip_map, chosenAt]
  rfl

theorem chosenAt_cons_eq_some {p : Form × Form} {ps : List (Form × Form)} :
    chosenAt κ env (p :: ps) = some z ↔ ∃ y, p.2.valueAt κ env = some y ∧
      (if y = 0 then chosenAt κ env ps else p.1.valueAt κ env) = some z :=
  firstTrue_cons_eq_some

/-- **The first piece that holds.** Of the pieces before it only the
conditions are evaluated, and of what comes after it nothing. -/
theorem chosenAt_of_first {before after : List (Form × Form)} {c : Form} {y : ℝ}
    (hbefore : ∀ p ∈ before, p.2.valueAt κ env = some 0) (hc : c.valueAt κ env = some y)
    (hy : y ≠ 0) : chosenAt κ env (before ++ (v, c) :: after) = v.valueAt κ env := by
  rw [chosenAt, List.map_append, List.map_cons, hc]
  refine firstTrue_append _ _ (fun p hp => ?_) hy
  obtain ⟨q, hq, rfl⟩ := List.mem_map.mp hp
  exact hbefore q hq

/-! ## Products and signs -/

theorem valueAt_int (n : ℤ) : (int n).valueAt κ env = some (n : ℝ) := Number.real_ofInt n

theorem valueAt_one : one.valueAt κ env = some 1 :=
  (valueAt_int 1).trans (congrArg some Int.cast_one)

theorem valueAt_minusOne : minusOne.valueAt κ env = some (-1) :=
  (valueAt_int (-1)).trans (by norm_num)

theorem valueAt_half : half.valueAt κ env = some (1 / 2) := by
  have hreal : Number.half.real = some (1 / 2) := by
    simp [Number.half, Number.ratio, Number.real, Rat.mkRat_eq_div]
  exact hreal

/-- A product as it stands has the product of the values. -/
theorem valueAt_rawProduct {xs : List ℝ} (h : HaveValues κ env us xs) :
    (rawProduct us).valueAt κ env = some xs.prod := by
  cases h with
  | nil => exact valueAt_one
  | cons hv hus =>
    cases hus with
    | nil => simpa [rawProduct] using hv
    | cons hw hus => exact valueAt_product_eq_some.mpr ⟨_, .cons hv (.cons hw hus), rfl⟩

/-- A sign in front of a form gives the opposite value. -/
theorem valueAt_negated (h : u.valueAt κ env = some x) : u.negated.valueAt κ env = some (-x) := by
  have signed {us : List Form} (hx : (Form.product us).valueAt κ env = some x) :
      (Form.product (minusOne :: us)).valueAt κ env = some (-x) := by
    obtain ⟨xs, hxs, rfl⟩ := valueAt_product_eq_some.mp hx
    exact valueAt_product_eq_some.mpr ⟨_, .cons valueAt_minusOne hxs, by simp⟩
  unfold negated
  split
  · exact Number.real_neg h
  · next a rest =>
    obtain ⟨xs, hxs, rfl⟩ := valueAt_product_eq_some.mp h
    obtain _ | @⟨_, y, _, ys, ha, hrest⟩ := hxs
    have hneg : a.neg.real = some (-y) := Number.real_neg ha
    split
    · next hone =>
      rw [beq_iff_eq.mp hone] at hneg
      have hy : ((1 : ℤ) : ℝ) = -y := Option.some.inj ((Number.real_ofInt 1).symm.trans hneg)
      rw [List.prod_cons, ← neg_mul, ← hy, Int.cast_one, one_mul]
      exact valueAt_rawProduct hrest
    · exact valueAt_product_eq_some.mpr ⟨_, .cons hneg hrest, by simp⟩
  · next rest =>
    obtain ⟨xs, hxs, rfl⟩ := valueAt_product_eq_some.mp h
    obtain _ | ⟨hunsigned, -⟩ := hxs
    cases hunsigned
  · exact signed h
  · have hsingle : (Form.product [u]).valueAt κ env = some x :=
      valueAt_product_eq_some.mpr ⟨[x], .cons h .nil, by simp⟩
    exact signed hsingle

end Form

end Fluxion.Algebra
