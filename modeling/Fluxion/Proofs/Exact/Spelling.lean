/-
Texts for closed terms. An integer has its digits; every other term has
the digits of a number of its own, followed by `.5`, so that it is not
taken for an integer. A term below zero is written as its opposite after a
minus sign.
-/
import Fluxion.Proofs.Exact.Closed
import Fluxion.Proofs.Tree.Compact

namespace Fluxion.Closed

open Text

/-- A number for each term, different for different terms. -/
noncomputable def code : Closed → ℕ := (Countable.exists_injective_nat Closed).choose

theorem code_injective : Function.Injective code :=
  (Countable.exists_injective_nat Closed).choose_spec

/-- The characters of a term that is not below zero. -/
noncomputable def unsigned : Closed → List Char
  | integer n => Nat.toDigits 10 n.toNat
  | a => Nat.toDigits 10 a.code ++ ['.', '5']

noncomputable instance : Numeral Closed where
  text a :=
    if compare .lt a (integer 0) then "-" ++ String.ofList (transform .neg a).unsigned
    else String.ofList a.unsigned
  plain a := String.ofList a.unsigned
  read? _ := none

/-! ## Digits -/

theorem isDigit_of_mem_toDigits {n : ℕ} {c : Char} (h : c ∈ Nat.toDigits 10 n) :
    c.isDigit = true :=
  Nat.isDigit_of_mem_toDigits (by decide) (by decide) h

theorem toDigits_inj {m n : ℕ} (h : Nat.toDigits 10 m = Nat.toDigits 10 n) : m = n := by
  rw [← Nat.ofDigitChars_ten_toDigits (n := m), h, Nat.ofDigitChars_ten_toDigits]

theorem isUnsigned_unsigned (a : Closed) : IsUnsigned a.unsigned := by
  have fraction (n : ℕ) : IsUnsigned (Nat.toDigits 10 n ++ ['.', '5']) :=
    .fraction (fun _ => isDigit_of_mem_toDigits) Nat.toDigits_ne_nil
      (List.forall_mem_singleton.mpr rfl) (List.cons_ne_nil '5' [])
  cases a with
  | integer n => exact .digits (fun _ => isDigit_of_mem_toDigits) Nat.toDigits_ne_nil
  | binary op l r => exact fraction _
  | unary op u => exact fraction _

/-- Terms that are not below zero and are written alike have one value. -/
theorem value_of_unsigned {a b : Closed} {x y : ℝ} (ha : a.value = some x) (hb : b.value = some y)
    (hx : 0 ≤ x) (hy : 0 ≤ y) (h : a.unsigned = b.unsigned) : x = y := by
  have mixed (m n : ℕ) : Nat.toDigits 10 m ≠ Nat.toDigits 10 n ++ ['.', '5'] := fun h => by
    have : '.' ∈ Nat.toDigits 10 m := by rw [h]; simp
    exact absurd (isDigit_of_mem_toDigits this) (by decide)
  have coded {a b : Closed} (h : Nat.toDigits 10 a.code ++ ['.', '5'] =
      Nat.toDigits 10 b.code ++ ['.', '5']) : a = b :=
    code_injective (toDigits_inj (List.append_cancel_right h))
  cases a with
  | integer m =>
    cases b with
    | integer n =>
      obtain rfl := Option.some.inj ha
      obtain rfl := Option.some.inj hb
      have hmn := toDigits_inj h
      rw [Int.cast_nonneg_iff] at hx hy
      congr 1
      omega
    | _ => exact absurd h (mixed _ _)
  | _ =>
    cases b with
    | integer n => exact absurd h.symm (mixed _ _)
    | _ =>
      obtain rfl := Option.some.inj (ha.symm.trans ((congrArg value (coded h)).trans hb))
      rfl

/-! ## The laws of texts -/

theorem text_of_neg {a : Closed} (h : compare .lt a (integer 0) = true) :
    Numeral.text a = "-" ++ String.ofList (transform .neg a).unsigned :=
  if_pos h

theorem text_of_nonneg {a : Closed} (h : compare .lt a (integer 0) = false) :
    Numeral.text a = String.ofList a.unsigned :=
  if_neg (by simp [h])

theorem lt_zero_iff {a : Closed} {x : ℝ} (ha : a.value = some x) :
    compare .lt a (integer 0) = true ↔ x < 0 := by
  rw [compare_eq ha (b := integer 0) (y := 0) (by simp [value])]
  simp [Relation.exact]

/-- The opposite of a term below zero is not below zero. -/
theorem neg_of_lt_zero {a : Closed} {x : ℝ} (ha : a.value = some x) (hx : x < 0) :
    (transform .neg a).value = some (-x) ∧ compare .lt (transform .neg a) (integer 0) = false := by
  have hneg : (transform .neg a).value = UnaryOp.neg.exact x := value_transform ha
  refine ⟨hneg, ?_⟩
  rw [Bool.eq_false_iff, ne_eq, lt_zero_iff hneg]
  linarith

/-- A text begins with a minus sign only below zero. -/
theorem neg_text_ne (a b : Closed) :
    "-" ++ String.ofList a.unsigned ≠ String.ofList b.unsigned := by
  intro h
  obtain ⟨c, cs, hc, hdigit⟩ := (isUnsigned_unsigned b).head
  have h' := congrArg String.toList h
  simp only [String.toList_append, String.toList_ofList, hc] at h'
  obtain ⟨rfl, -⟩ := List.cons.inj h'
  cases hdigit

instance : Spelled Closed where
  text_one := rfl
  isUnsigned _ h₀ := by
    rw [text_of_nonneg h₀, String.toList_ofList]
    exact isUnsigned_unsigned _
  text_neg {a} h h₀ := by
    obtain ⟨x, hx⟩ := Exact.reading_of_isFinite h
    obtain ⟨hneg, hlt⟩ := neg_of_lt_zero hx ((lt_zero_iff hx).mp h₀)
    refine ⟨?_, Exact.isFinite_of_reading hneg, hlt⟩
    rw [text_of_neg h₀]
    exact congrArg ("-" ++ ·) (text_of_nonneg hlt).symm
  eq_of_text {a b} ha hb h := by
    obtain ⟨x, hx⟩ := Exact.reading_of_isFinite ha
    obtain ⟨y, hy⟩ := Exact.reading_of_isFinite hb
    refine (Exact.eq_iff hx hy).mpr ?_
    cases hla : compare .lt a (integer 0) <;> cases hlb : compare .lt b (integer 0)
    · rw [text_of_nonneg hla, text_of_nonneg hlb] at h
      exact value_of_unsigned hx hy (not_lt.mp fun h₀ => by simp [(lt_zero_iff hx).mpr h₀] at hla)
        (not_lt.mp fun h₀ => by simp [(lt_zero_iff hy).mpr h₀] at hlb) (String.ofList_injective h)
    · rw [text_of_nonneg hla, text_of_neg hlb] at h
      exact absurd h.symm (neg_text_ne _ _)
    · rw [text_of_neg hla, text_of_nonneg hlb] at h
      exact absurd h (neg_text_ne _ _)
    · rw [text_of_neg hla, text_of_neg hlb] at h
      have hxn := (lt_zero_iff hx).mp hla
      have hyn := (lt_zero_iff hy).mp hlb
      have heq := value_of_unsigned (neg_of_lt_zero hx hxn).1 (neg_of_lt_zero hy hyn).1
        (by linarith) (by linarith) (String.ofList_injective (String.append_right_inj _ |>.mp h))
      linarith

end Fluxion.Closed
