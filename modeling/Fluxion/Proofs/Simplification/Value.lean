/-
Simplification keeps the exact value: where a tree has one, its simplified
form has the same.

The converse fails by design. `x / x` becomes one and `0 * x` zero, so a
simplified tree may have a value where the tree has none; each rule below
is therefore stated for operands that have values.
-/
import Mathlib.Tactic.Ring
import Fluxion.Proofs.Exact.Closed
import Fluxion.Proofs.Tree.Over

namespace Fluxion.Tree

open Exact (reading)

variable {α K : Type} [Field K] [LinearOrder K] [Elementary K] [Scalar α] [Exact α K]
variable {env : String → K} {x y z : K}

/-! ## Signs and functions -/

theorem exact_negate {u : Tree α} (h : u.exact env = some x) :
    (negate u).exact env = some (-x) := by
  unfold negate
  split
  · obtain ⟨y, hy, rfl⟩ := exact_neg_eq_some.mp h
    rw [hy, neg_neg]
  · exact Exact.reading_neg h
  · exact exact_neg_eq_some.mpr ⟨x, h, rfl⟩

theorem exact_apply {op : UnaryOp} {u : Tree α} (h : u.exact env = some x)
    (hz : op.exact x = some z) : (apply op u).exact env = some z := by
  unfold apply
  split
  · dsimp only
    split
    · rw [exact_const, Exact.reading_unary h, hz]
    · exact exact_unary_eq_some.mpr ⟨x, h, hz⟩
  · exact exact_unary_eq_some.mpr ⟨x, h, hz⟩

theorem exact_simplifyUnary {op : UnaryOp} {u : Tree α} (h : u.exact env = some x)
    (hz : op.exact x = some z) : (simplifyUnary op u).exact env = some z := by
  unfold simplifyUnary
  split
  · rw [exact_negate h]; exact hz
  · exact exact_apply h hz

/-! ## Products -/

/-- A fold that is kept is exact. -/
theorem reading_foldBinary {op : BinaryOp} {a b c : α} (hc : foldBinary op a b = some c)
    (ha : reading a = some x) (hb : reading b = some y) : reading c = op.exact x y := by
  simp only [foldBinary, Scalar.finite?, Option.ite_none_right_eq_some, Option.some.injEq] at hc
  rw [← hc.2, Exact.reading_binary ha hb]

theorem exact_mul {l r : Tree α} (hl : l.exact env = some x) (hr : r.exact env = some y) :
    (Tree.binary .mul l r).exact env = some (x * y) :=
  exact_mul_eq_some.mpr ⟨x, y, hl, hr, rfl⟩

/-- A literal found to be zero, one or minus one stands for that. -/
theorem reading_eq_zero {c : α} (h : Scalar.eq c Scalar.zero = true) (hc : reading c = some x) :
    x = 0 := (Exact.eq_iff hc Exact.reading_zero).mp h

theorem reading_eq_one {c : α} (h : Scalar.eq c Scalar.one = true) (hc : reading c = some x) :
    x = 1 := (Exact.eq_iff hc Exact.reading_one).mp h

theorem reading_eq_neg_one {c : α} (h : Scalar.eq c (Scalar.neg Scalar.one) = true)
    (hc : reading c = some x) : x = -1 :=
  (Exact.eq_iff hc (Exact.reading_neg Exact.reading_one)).mp h

theorem exact_unfoldedProduct {a b : α} (ha : reading a = some x) (hb : reading b = some y) :
    (unfoldedProduct a b).exact env = some (x * y) := by
  unfold unfoldedProduct
  split
  · next h =>
    simp only [Bool.or_eq_true] at h
    rcases h with h | h
    · simp [reading_eq_zero h ha]
    · simp [reading_eq_zero h hb]
  split
  · next h => rw [reading_eq_one h hb, mul_one]; exact ha
  split
  · next h => rw [reading_eq_one h ha, one_mul]; exact hb
  split
  · next h =>
    rw [reading_eq_neg_one h hb, mul_neg_one]
    exact exact_negate (u := .const a) ha
  · rw [mul_comm x y]
    exact exact_mul (l := .const b) (r := .const a) hb ha

/-- Merging a coefficient into a product keeps the value, however often it
happens. -/
theorem exact_scale {c : α} {t : Tree α} (hc : reading c = some x) (ht : t.exact env = some y) :
    (scale c t).exact env = some (x * y) := by
  fun_induction scale c t generalizing x y with
  | case1 c a r hr =>
    rw [exact_const, reading_foldBinary hr hc ht]; rfl
  | case2 c a hr => exact exact_unfoldedProduct hc ht
  | case3 c a f h => simp [reading_eq_zero h hc]
  | case4 c a f _ h => rw [reading_eq_one h hc, one_mul]; exact ht
  | case5 c a f _ _ h => rw [reading_eq_neg_one h hc, neg_one_mul]; exact exact_negate ht
  | case6 c a f _ _ _ r hr ih =>
    obtain ⟨k, w, hk, hw, rfl⟩ := exact_mul_eq_some.mp ht
    rw [← mul_assoc]
    exact ih ((reading_foldBinary hr hc hk).trans rfl) hw
  | case7 c a f _ _ _ hr => exact exact_mul (l := .const c) hc ht
  | case8 c t _ _ h => simp [reading_eq_zero h hc]
  | case9 c t _ _ _ h => rw [reading_eq_one h hc, one_mul]; exact ht
  | case10 c t _ _ _ _ h => rw [reading_eq_neg_one h hc, neg_one_mul]; exact exact_negate ht
  | case11 c t _ _ _ _ _ => exact exact_mul (l := .const c) hc ht

theorem exact_product {l r : Tree α} (hl : l.exact env = some x) (hr : r.exact env = some y) :
    (product l r).exact env = some (x * y) := by
  unfold product
  split
  · exact exact_scale hl hr
  · rw [mul_comm]; exact exact_scale hr hl
  · exact exact_mul hl hr

/-! ## The other operations -/

theorem exact_sum {l r : Tree α} (hl : l.exact env = some x) (hr : r.exact env = some y) :
    (sum l r).exact env = some (x + y) := by
  unfold sum
  split
  · next h => rw [exact_of_isLiteral h hr, Nat.cast_zero, add_zero]; exact hl
  split
  · next h => rw [exact_of_isLiteral h hl, Nat.cast_zero, zero_add]; exact hr
  · exact exact_add_eq_some.mpr ⟨x, y, hl, hr, rfl⟩

theorem exact_difference {l r : Tree α} (hl : l.exact env = some x) (hr : r.exact env = some y) :
    (difference l r).exact env = some (x - y) := by
  unfold difference
  split
  · next h => rw [exact_of_isLiteral h hr, Nat.cast_zero, sub_zero]; exact hl
  split
  · next h => rw [exact_of_isLiteral h hl, Nat.cast_zero, zero_sub]; exact exact_negate hr
  split
  · next h => rw [exact_eq_of_eq h hl hr, sub_self]; exact exact_zero
  · exact exact_sub_eq_some.mpr ⟨x, y, hl, hr, rfl⟩

theorem exact_quotient {l r : Tree α} (hl : l.exact env = some x) (hr : r.exact env = some y)
    (hy : y ≠ 0) : (quotient l r).exact env = some (x / y) := by
  unfold quotient
  split
  · next h => rw [exact_of_isLiteral h hr, Nat.cast_one, div_one]; exact hl
  split
  · next h =>
    rw [Bool.and_eq_true] at h
    rw [exact_of_isLiteral h.1 hl, Nat.cast_zero, zero_div]; exact exact_zero
  split
  · next h =>
    rw [Bool.and_eq_true] at h
    rw [exact_eq_of_eq h.1 hl hr, div_self hy]; exact exact_one
  · exact exact_div_eq_some.mpr ⟨x, y, hl, hr, hy, rfl⟩

theorem exact_power {l r : Tree α} (hl : l.exact env = some x) (hr : r.exact env = some y)
    (hz : Elementary.power x y = some z) : (power l r).exact env = some z := by
  unfold power
  split
  · next h =>
    rw [exact_of_isLiteral h hr, Nat.cast_zero, Elementary.power_zero] at hz
    rw [← hz]; exact exact_one
  split
  · next h =>
    rw [exact_of_isLiteral h hr, Nat.cast_one, Elementary.power_one] at hz
    rw [← hz]; exact hl
  split
  · next h =>
    rw [exact_of_isLiteral h hl, Nat.cast_one, Elementary.one_power] at hz
    rw [← hz]; exact exact_one
  · exact exact_pow_eq_some.mpr ⟨x, y, hl, hr, hz⟩

theorem exact_combine {op : BinaryOp} {l r : Tree α} (hl : l.exact env = some x)
    (hr : r.exact env = some y) (hz : op.exact x y = some z) :
    (combine op l r).exact env = some z := by
  cases op with
  | add => obtain rfl := Option.some.inj hz; exact exact_sum hl hr
  | sub => obtain rfl := Option.some.inj hz; exact exact_difference hl hr
  | mul => obtain rfl := Option.some.inj hz; exact exact_product hl hr
  | div =>
    obtain ⟨hy, rfl⟩ := BinaryOp.exact_div_eq_some.mp hz
    exact exact_quotient hl hr hy
  | pow => exact exact_power hl hr hz

theorem exact_simplifyBinary {op : BinaryOp} {l r : Tree α} (hl : l.exact env = some x)
    (hr : r.exact env = some y) (hz : op.exact x y = some z) :
    (simplifyBinary op l r).exact env = some z := by
  unfold simplifyBinary
  split
  · split
    · next hc => rw [exact_const, reading_foldBinary hc hl hr, hz]
    · exact exact_combine hl hr hz
  · exact exact_combine hl hr hz

/-! ## Comparisons and conditionals -/

theorem exact_simplifyRelation {rel : Relation} {l r : Tree α} (hl : l.exact env = some x)
    (hr : r.exact env = some y) :
    (simplifyRelation rel l r).exact env = some (if rel.exact x y then 1 else 0) := by
  unfold simplifyRelation
  split
  · rw [Exact.holds_eq hl hr]
    split
    · exact exact_one
    · exact exact_zero
  · exact exact_relate_eq_some.mpr ⟨x, y, hl, hr, rfl⟩

/-- A literal tests true exactly where it is not zero. -/
theorem holds_ne_zero_iff {a : α} (ha : reading a = some x) :
    Scalar.holds .ne a Scalar.zero = true ↔ x ≠ 0 := by
  rw [Exact.holds_eq ha Exact.reading_zero]; simp [Relation.exact]

/-- Only the branch that the test selects has to have a value. -/
theorem exact_simplifyBranch {c t f : Tree α} (hc : c.exact env = some x)
    (hz : (if x = 0 then f.exact env else t.exact env) = some z) :
    (simplifyBranch c t f).exact env = some z := by
  unfold simplifyBranch
  split
  · by_cases hx : x = 0
    · rw [if_neg (by rw [holds_ne_zero_iff hc]; exact not_not.mpr hx)]
      rwa [if_pos hx] at hz
    · rw [if_pos ((holds_ne_zero_iff hc).mpr hx)]
      rwa [if_neg hx] at hz
  · exact exact_branch_eq_some.mpr ⟨x, hc, hz⟩

/-! ## Whole trees -/

/-- By induction on the tree; a branch that is not taken needs no value, so
the induction hypothesis is used only where the tree is evaluated. -/
theorem exact_simplify_eq {t : Tree α} (h : t.exact env = some z) :
    t.simplify.exact env = some z := by
  induction t generalizing z with
  | var s => exact h
  | const a => exact h
  | binary op l r hl hr =>
    obtain ⟨x, y, hx, hy, hz⟩ := exact_binary_eq_some.mp h
    exact exact_simplifyBinary (hl hx) (hr hy) hz
  | unary op u hu =>
    obtain ⟨x, hx, hz⟩ := exact_unary_eq_some.mp h
    exact exact_simplifyUnary (hu hx) hz
  | relate rel l r hl hr =>
    obtain ⟨x, y, hx, hy, rfl⟩ := exact_relate_eq_some.mp h
    exact exact_simplifyRelation (hl hx) (hr hy)
  | branch c t f hc ht hf =>
    obtain ⟨x, hx, hz⟩ := exact_branch_eq_some.mp h
    refine exact_simplifyBranch (hc hx) ?_
    split at hz <;> rename_i h₀
    · rw [if_pos h₀]; exact hf hz
    · rw [if_neg h₀]; exact ht hz

/-- **Simplification preserves the value** of every tree that has one. -/
theorem exact_simplify {t : Tree α} (h : (t.exact env).isSome = true) :
    t.simplify.exact env = t.exact env := by
  obtain ⟨z, hz⟩ := Option.isSome_iff_exists.mp h
  rw [hz, exact_simplify_eq hz]

/-- `(y / y) * (x * 2)` is simplified to `2 * x`; both are six at
`x = 3`, `y = 5`. -/
theorem exact_simplify_quotient :
    (Tree.binary .mul (.binary .div (.var "y") (.var "y"))
      (.binary .mul (.var "x") (.const (Closed.integer 2)))).simplify.exact
        (fun x => if x = "x" then 3 else 5) = some 6 := by
  have h : (Tree.binary .mul (.binary .div (.var "y") (.var "y"))
      (.binary .mul (.var "x") (.const (Closed.integer 2)))).exact
        (fun x => if x = "x" then 3 else 5) = some 6 := by
    refine exact_mul_eq_some.mpr ⟨1, 6, exact_div_eq_some.mpr ⟨5, 5, ?_⟩,
      exact_mul_eq_some.mpr ⟨3, 2, ?_⟩, ?_⟩
    · simp
    · simp; norm_num
    · norm_num
  rw [exact_simplify (by rw [h]; rfl), h]

end Fluxion.Tree
