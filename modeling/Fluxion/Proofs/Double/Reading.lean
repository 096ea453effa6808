/-
Doubles as the numbers they are. A finite double is read as `± m · 2^q` in any
ordered field, both zeros as zero. Opposite doubles are read as opposite
numbers and equal ones alike (`isReading`), so of trees over doubles the
compact text decides where they have an exact value and which
(`same_value_of_compact`).
-/
import Fluxion.Proofs.Double.Spelling
import Fluxion.Proofs.Exact.Rational

namespace Fluxion.Double

variable {K : Type} [Field K] {x y : Float} {n : Bool} {m : ℕ} {q : ℤ}

/-- The number that a finite double is. -/
def reading (x : Float) : Option K :=
  match parts x with
  | .finite n m q => some (if n then -(m * 2 ^ q) else m * 2 ^ q)
  | _ => none

theorem reading_of_parts (h : parts x = .finite n m q) :
    reading x = some (if n then -((m : K) * 2 ^ q) else m * 2 ^ q) := by
  rw [reading, h]

/-- Only a finite double is a number. -/
theorem exists_parts_of_reading {z : K} (h : reading x = some z) :
    ∃ n m q, parts x = .finite n m q ∧ (if n then -((m : K) * 2 ^ q) else m * 2 ^ q) = z := by
  unfold reading at h
  split at h
  · next n m q hp => exact ⟨n, m, q, hp, Option.some.inj h⟩
  · cases h

theorem reading_eq_of_eq (h : Scalar.eq x y = true) : (reading x : Option K) = reading y := by
  have hzero : (reading 0 : Option K) = reading (-0) := by
    rw [reading_of_parts (n := false) (m := 0) (q := -1074) rfl,
      reading_of_parts (n := true) (m := 0) (q := -1074) rfl]
    simp
  obtain ⟨-, -, rfl | ⟨rfl, rfl⟩ | ⟨rfl, rfl⟩⟩ := Float.beq_iff_ne_nan_and_eq.mp h
  · rfl
  · exact hzero
  · exact hzero.symm

theorem isReading [CharZero K] : IsReading (reading : Float → Option K) where
  isFinite_iff := by
    intro x
    constructor
    · intro h
      obtain ⟨n, m, q, hp, -⟩ := exists_parts h
      exact ⟨_, reading_of_parts hp⟩
    · rintro ⟨z, h⟩
      obtain ⟨n, m, q, hp, -⟩ := exists_parts_of_reading h
      exact isFinite_of_parts hp
  one := by
    have hparts : parts Scalar.one = .finite false (2 ^ 52) (-52) := rfl
    rw [reading_of_parts hparts]
    norm_num
  neg := by
    intro x z h
    obtain ⟨n, m, q, hp, rfl⟩ := exists_parts_of_reading h
    refine (reading_of_parts (parts_neg hp)).trans ?_
    cases n <;> simp
  eq := by
    intro x y z w hx hy h
    have heq : some z = some w := by rw [← hx, ← hy, reading_eq_of_eq h]
    exact Option.some.inj heq

end Fluxion.Double

namespace Fluxion.Tree

open Text (IsIdentifier)

variable {K : Type} [Field K] [LinearOrder K] [IsStrictOrderedRing K] [Elementary K]

/-- **The compact text decides the value.** Trees over doubles whose compact
texts are equal have an exact value at the same assignments, and there the
same, whatever the powers are with `x ^ 1` being `x`, and whatever the functions. -/
theorem same_value_of_compact {v : String} (hv : IsIdentifier v) {a b : Tree Float}
    (ha : a.Over IsIdentifier) (hb : b.Over IsIdentifier) (h : a.compact v = b.compact v)
    (env : String → K) : a.valueBy Double.reading env = b.valueBy Double.reading env :=
  valueBy_eq_of_compact Double.isReading hv ha hb h env

/-- `x ^ 1 * -2`, with a literal below zero. -/
def scaledPower : Tree Float :=
  .binary .mul (.binary .pow (.var "x") (.const 1)) (.const (-2))

/-- `x * -(2)`, with a negation. -/
def scaledOpposite : Tree Float := .binary .mul (.var "x") (.unary .neg (.const 2))

/-- Both are written `(x*(-2))`. -/
theorem same_value_of_compact_scaled :
    IsIdentifier "x" ∧ scaledPower.Over IsIdentifier ∧ scaledOpposite.Over IsIdentifier ∧
      scaledPower.compact "x" = scaledOpposite.compact "x" ∧
      ∀ env : String → ℚ, scaledPower.valueBy Double.reading env =
        scaledOpposite.valueBy Double.reading env := by
  have hv : IsIdentifier "x" := by decide
  have hpower : scaledPower.Over IsIdentifier := ⟨⟨hv, rfl⟩, rfl⟩
  have hopposite : scaledOpposite.Over IsIdentifier := ⟨hv, rfl⟩
  have hcompact : scaledPower.compact "x" = scaledOpposite.compact "x" := rfl
  exact ⟨hv, hpower, hopposite, hcompact, same_value_of_compact hv hpower hopposite hcompact⟩

end Fluxion.Tree
