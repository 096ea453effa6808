/-
Exact numbers that can be written down: closed terms over the integers,
read in the real numbers. Integers are computed with as far as the result
is an integer; every other operation is kept as a term and not carried out.

The terms are countable, so each can have a spelling of its own, which the
real numbers themselves could not.
-/
import Mathlib.Tactic.DeriveCountable
import Fluxion.Tree.Printer
import Fluxion.Proofs.Exact.Real

namespace Fluxion

deriving instance Countable for BinaryOp
deriving instance Countable for UnaryOp

/-- A number as a term without variables. -/
inductive Closed where
  | integer (n : ℤ)
  | binary (op : BinaryOp) (left right : Closed)
  | unary (op : UnaryOp) (operand : Closed)
deriving Countable

namespace Closed

/-- The number a term stands for, if it stands for one. -/
noncomputable def value : Closed → Option ℝ
  | integer n => some n
  | binary op a b => do
    let x ← a.value
    let y ← b.value
    op.exact x y
  | unary op a => do
    let x ← a.value
    op.exact x

/-- An operation, carried out where it leads from integers to an
integer. -/
def operate : BinaryOp → Closed → Closed → Closed
  | .add, integer m, integer n => integer (m + n)
  | .sub, integer m, integer n => integer (m - n)
  | .mul, integer m, integer n => integer (m * n)
  | .div, integer m, integer n =>
    if n ≠ 0 ∧ n ∣ m then integer (m / n) else binary .div (integer m) (integer n)
  | op, a, b => binary op a b

/-- Negation or a function; only an integer is negated at once. -/
def transform : UnaryOp → Closed → Closed
  | .neg, integer n => integer (-n)
  | op, a => unary op a

/-- A comparison of the values; there is none without values. -/
noncomputable def compare (rel : Relation) : Closed → Closed → Bool
  | integer m, integer n => rel.exact m n
  | a, b =>
    match a.value, b.value with
    | some x, some y => rel.exact x y
    | _, _ => false

def isInteger : Closed → Bool
  | integer _ => true
  | _ => false

noncomputable instance : Scalar Closed where
  ofNat n := integer n
  decimal m e := operate .mul (integer m) (operate .pow (integer 10) (integer e))
  binary := operate
  unary := transform
  holds := compare
  isFinite
    | integer _ => true
    | a => a.value.isSome
  isInteger := isInteger
  round a := a
  digest _ := 0

theorem exact_intCast (rel : Relation) (m n : ℤ) : rel.exact (m : ℝ) n = rel.exact m n := by
  cases rel <;> simp [Relation.exact]

theorem value_operate {op : BinaryOp} {a b : Closed} {x y : ℝ} (ha : a.value = some x)
    (hb : b.value = some y) : (operate op a b).value = op.exact x y := by
  have kept : (binary op a b).value = op.exact x y := by simp [value, ha, hb]
  unfold operate
  split
  · obtain rfl := Option.some.inj ha
    obtain rfl := Option.some.inj hb
    simp [value, BinaryOp.exact]
  · obtain rfl := Option.some.inj ha
    obtain rfl := Option.some.inj hb
    simp [value, BinaryOp.exact]
  · obtain rfl := Option.some.inj ha
    obtain rfl := Option.some.inj hb
    simp [value, BinaryOp.exact]
  · next m n =>
    split
    · next h =>
      obtain rfl := Option.some.inj ha
      obtain rfl := Option.some.inj hb
      have hn : (n : ℝ) ≠ 0 := Int.cast_ne_zero.mpr h.1
      simp [value, BinaryOp.exact, hn, Int.cast_div h.2 hn]
    · exact kept
  · exact kept

theorem value_transform {op : UnaryOp} {a : Closed} {x : ℝ} (ha : a.value = some x) :
    (transform op a).value = op.exact x := by
  unfold transform
  split
  · obtain rfl := Option.some.inj ha
    simp [value, UnaryOp.exact]
  · simp [value, ha]

theorem compare_eq {rel : Relation} {a b : Closed} {x y : ℝ} (ha : a.value = some x)
    (hb : b.value = some y) : compare rel a b = rel.exact x y := by
  unfold compare
  split
  · obtain rfl := Option.some.inj ha
    obtain rfl := Option.some.inj hb
    exact (exact_intCast _ _ _).symm
  · rw [ha, hb]

theorem isFinite_of_compare {rel : Relation} {a b : Closed} (h : compare rel a b = true) :
    Scalar.isFinite a = true := by
  cases a with
  | integer n => rfl
  | _ =>
    unfold compare at h
    split at h
    · next hinteger => cases hinteger
    · split at h
      · next ha _ => exact Option.isSome_iff_exists.mpr ⟨_, ha⟩
      · cases h

noncomputable instance : Exact Closed ℝ where
  reading := value
  isFinite_eq a := by cases a <;> rfl
  reading_ofNat n := by simp [value, Scalar.ofNat]
  reading_binary := value_operate
  reading_unary := value_transform
  holds_eq := compare_eq
  isFinite_of_eq h _ := isFinite_of_compare h

instance : Exact.Decimals Closed where
  reading_decimal m e := by
    have hpower : Elementary.power (10 : ℝ) e = some (10 ^ e) :=
      power_eq_some.mpr ⟨.inl (by norm_num), Real.rpow_intCast 10 e⟩
    have hvalue : (operate .pow (integer 10) (integer e)).value = some (10 ^ e) :=
      (value_operate rfl rfl).trans hpower
    exact value_operate rfl hvalue

@[simp] theorem reading_integer (n : ℤ) : Exact.reading (integer n) = some (n : ℝ) := rfl

def ofRat (r : ℚ) : Closed := operate .div (integer r.num) (integer r.den)

@[simp] theorem reading_ofRat (r : ℚ) : Exact.reading (ofRat r) = some (r : ℝ) := by
  refine (value_operate rfl rfl).trans (BinaryOp.exact_div_eq_some.mpr ⟨by simp, ?_⟩)
  rw [Rat.cast_def, Int.cast_natCast]

end Closed

end Fluxion
