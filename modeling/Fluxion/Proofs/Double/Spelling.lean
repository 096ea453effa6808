/-
Doubles as literals. Two finite doubles that are written alike are equal,
and an opposite is written with a minus sign more (`Spelled`). The
characters after the sign depend on significand and power of two only
(`literalText_eq`); read as a number they belong to the double
(`mem_worth`), be they the digits of an integer or a shortest decimal, and
so they tell which double it is.

Equal doubles have the same fingerprint (`Fingerprinted`): adding a zero
makes one zero of the two.
-/
import Fluxion.Proofs.Decimal.Layout
import Fluxion.Proofs.Tree.Compact
import Fluxion.Proofs.Tree.Equality

namespace Fluxion.Double

open Decimal Float.Model
open Text (IsUnsigned)

variable {x y : Float} {n : Bool} {m : ℕ} {q : ℤ}

/-! ## Integral doubles -/

/-- Whether `m · 2^q` has no fractional part. -/
def integral (m : ℕ) (q : ℤ) : Bool := decide (0 ≤ q) || m % Nat.pow 2 (-q).toNat == 0

def whole (m : ℕ) (q : ℤ) : ℕ :=
  if 0 ≤ q then m * Nat.pow 2 q.toNat else m / Nat.pow 2 (-q).toNat

theorem integral_zero (q : ℤ) : integral 0 q = true := by simp [integral]

theorem isInteger_eq (h : parts x = .finite n m q) : isInteger x = integral m q := by
  rw [isInteger, h]
  rfl

theorem toInt_eq (h : parts x = .finite n m q) :
    toInt x = if n then -(whole m q : ℤ) else whole m q := by
  rw [toInt, h]
  rfl

theorem whole_eq (h : integral m q = true) : (whole m q : ℚ) = m * 2 ^ q := by
  unfold integral at h
  unfold whole
  split
  · next hq =>
    obtain ⟨k, rfl⟩ := Int.eq_ofNat_of_zero_le hq
    simp
  · next hq =>
    obtain ⟨k, hk⟩ := Int.eq_ofNat_of_zero_le (show 0 ≤ -q by omega)
    obtain rfl : q = -(k : ℤ) := by omega
    simp only [hk, Int.toNat_natCast, Nat.pow_eq, hq, decide_false, Bool.false_or, beq_iff_eq]
      at h ⊢
    rw [Nat.cast_div (Nat.dvd_of_mod_eq_zero h) (by positivity), zpow_neg, zpow_natCast,
      div_eq_mul_inv]
    push_cast
    rfl

/-! ## The characters after the sign -/

/-- The characters of `m · 2^q`; an integral one has no point if it is
`small`. -/
def unsigned (small : Bool) (m : ℕ) (q : ℤ) : List Char :=
  if integral m q && small then digitsOf (whole m q) else layout (shortest m q)

/-- The limit below which an integral double has no point. -/
def isSmall (x : Float) : Bool := x.abs < 1e15

theorem isSmall_neg (x : Float) : isSmall (-x) = isSmall x := by
  rw [isSmall, isSmall, abs_neg]

theorem isSmall_of_zero (h : parts x = .finite n 0 q) : isSmall x = true := by
  rcases unpack_of_parts h with ⟨s, hf, -⟩ | ⟨s, hm, -⟩
  · change decide (Float.ofModel (Float.Model.pack x.toModel.unpack.abs) < 1e15) = true
    rw [hf]
    exact show decide (Float.ofModel (Float.Model.pack (.zero .positive)) < 1e15) = true by decide
  · exact absurd hm (lt_irrefl 0)

theorem plain_eq (h : parts x = .finite n m q) (hm : 0 < m) :
    plain x = signed n (layout (shortest m q)) := by
  obtain ⟨k, rfl⟩ := Nat.exists_eq_add_of_lt hm
  simp only [plain, h, layout]
  split
  · split <;> rfl
  · rfl

theorem repr_eq (h : parts x = .finite n m q) :
    (toInt x).repr = signed (n && decide (0 < whole m q)) (digitsOf (whole m q)) := by
  rw [toInt_eq h]
  cases n with
  | false => exact Nat.repr_eq_ofList_toDigits
  | true =>
    cases hwhole : whole m q with
    | zero => rfl
    | succ k =>
      change "-" ++ Nat.repr (k + 1) = _
      rw [Nat.repr_eq_ofList_toDigits]
      exact String.toList_injective (by simp [signed, digitsOf])

theorem whole_pos (hi : integral m q = true) : 0 < whole m q ↔ 0 < m := by
  have hcast := whole_eq hi
  rw [← Nat.cast_pos (α := ℚ), hcast, mul_pos_iff_of_pos_right (by positivity), Nat.cast_pos]

/-- A double is written with a minus sign if it is below zero. -/
theorem literalText_eq (h : parts x = .finite n m q) :
    literalText x = signed (n && decide (0 < m)) (unsigned (isSmall x) m q) := by
  have hsmall : decide (x.abs < 1e15) = isSmall x := rfl
  rw [literalText, unsigned, isInteger_eq h, hsmall]
  split
  · next hdigits =>
    obtain ⟨hi, -⟩ := Bool.and_eq_true_iff.mp hdigits
    simp only [repr_eq h, whole_pos hi]
  · next hlayout =>
    have hm : 0 < m := by
      refine Nat.pos_of_ne_zero ?_
      rintro rfl
      exact hlayout (by rw [integral_zero, isSmall_of_zero h]; rfl)
    rw [plain_eq h hm, decide_eq_true hm, Bool.and_true]

/-! ## What they spell -/

/-- Zero is written as an integer. -/
theorem pos_of_layout {small : Bool} (h : 0 < m ∨ small = true)
    (hlayout : ¬ (integral m q && small) = true) : 0 < m := by
  refine Nat.pos_of_ne_zero ?_
  rintro rfl
  exact hlayout (by rw [integral_zero, h.resolve_left (lt_irrefl 0)]; rfl)

theorem isUnsigned_unsigned {small : Bool} (hc : Canonical m q) (h : 0 < m ∨ small = true) :
    IsUnsigned (unsigned small m q) := by
  unfold unsigned
  split
  · exact .digits (fun _ => isDigit_of_mem_digitsOf) Nat.toDigits_ne_nil
  · next hlayout => exact isUnsigned_layout (digits_shortest_pos hc (pos_of_layout h hlayout))

theorem worth_digitsOf (k : ℕ) : worth (digitsOf k) = k := by
  have hdigits : ∀ c ∈ digitsOf k, c.isDigit = true := fun _ => isDigit_of_mem_digitsOf
  have hworth : worth (digitsOf k ++ []) = valueOf (digitsOf k) * 10 ^ (0 : ℤ) :=
    worth_whole rfl (by simp) hdigits (by simp)
  rwa [List.append_nil, valueOf_digitsOf, zpow_zero, mul_one] at hworth

/-- **The characters belong to the double** they are written for. -/
theorem mem_worth {small : Bool} (hc : Canonical m q) (h : 0 < m ∨ small = true) :
    (Interval.of m q).Mem (worth (unsigned small m q)) := by
  unfold unsigned
  split
  · next hdigits =>
    obtain ⟨hi, -⟩ := Bool.and_eq_true_iff.mp hdigits
    rw [worth_digitsOf, whole_eq hi]
    exact mem_self m q
  · next hlayout =>
    have hm := pos_of_layout h hlayout
    rw [worth_layout (digits_shortest_pos hc hm)]
    exact mem_shortest hc hm

/-! ## Doubles as literals -/

theorem pos_or_isSmall (h : parts x = .finite n m q) : 0 < m ∨ isSmall x = true := by
  rcases Nat.eq_zero_or_pos m with rfl | hm
  · exact .inr (isSmall_of_zero h)
  · exact .inl hm

theorem signed_true (cs : List Char) : signed true cs = "-" ++ signed false cs :=
  String.toList_injective (by simp [signed])

/-- The sign can be told from the text. -/
theorem signed_inj {n n' : Bool} {cs cs' : List Char} (hcs : IsUnsigned cs) (hcs' : IsUnsigned cs')
    (h : signed n cs = signed n' cs') : n = n' ∧ cs = cs' := by
  obtain ⟨c, ds, rfl, hc⟩ := hcs.head
  obtain ⟨c', ds', rfl, hc'⟩ := hcs'.head
  have hlist := String.ofList_injective h
  cases n <;> cases n'
  · exact ⟨rfl, hlist⟩
  · obtain rfl : c = '-' := (List.cons.inj hlist).1
    cases hc
  · obtain rfl : '-' = c' := (List.cons.inj hlist).1
    cases hc'
  · exact ⟨rfl, (List.cons.inj hlist).2⟩

instance : Spelled Float where
  text_one := rfl
  isUnsigned {a} h h₀ := by
    obtain ⟨n, m, q, hp, hc⟩ := exists_parts h
    have hsign : (n && decide (0 < m)) = false := by
      rw [Bool.eq_false_iff, ne_eq, Bool.and_eq_true, decide_eq_true_iff, ← lt_zero_iff hp, h₀]
      exact Bool.false_ne_true
    change IsUnsigned (literalText a).toList
    rw [literalText_eq hp, hsign, signed, if_neg Bool.false_ne_true, String.toList_ofList]
    exact isUnsigned_unsigned hc (pos_or_isSmall hp)
  text_neg {a} h h₀ := by
    obtain ⟨n, m, q, hp, hc⟩ := exists_parts h
    obtain ⟨rfl, hm⟩ := (lt_zero_iff hp).mp h₀
    have hneg := parts_neg hp
    refine ⟨?_, isFinite_of_parts hneg, ?_⟩
    · change literalText a = "-" ++ literalText (-a)
      rw [literalText_eq hp, literalText_eq hneg, isSmall_neg, decide_eq_true hm]
      exact signed_true _
    · rw [Bool.eq_false_iff, ne_eq]
      exact fun hlt => absurd ((lt_zero_iff hneg).mp hlt).1 Bool.false_ne_true
  eq_of_text {a b} ha hb h := by
    obtain ⟨n, m, q, hp, hc⟩ := exists_parts ha
    obtain ⟨n', m', q', hp', hc'⟩ := exists_parts hb
    have hpos := pos_or_isSmall hp
    have hpos' := pos_or_isSmall hp'
    change literalText a = literalText b at h
    rw [literalText_eq hp, literalText_eq hp'] at h
    obtain ⟨hsign, hcs⟩ :=
      signed_inj (isUnsigned_unsigned hc hpos) (isUnsigned_unsigned hc' hpos') h
    obtain ⟨rfl, rfl⟩ := eq_of_mem hc hc' (mem_worth hc hpos) (hcs ▸ mem_worth hc' hpos')
    refine eq_of_parts hp hp' ?_
    rcases Nat.eq_zero_or_pos m with hm | hm
    · exact .inr hm
    · exact .inl (by simpa [hm] using hsign)

/-! ## Fingerprints -/

/-- Zeros apart, numbers are equal only to themselves. -/
theorem eq_or_zero_of_compare {f g : UnpackedFloat} (h : f.compare g = some .eq) :
    f = g ∨ ∃ s r, f = .zero s ∧ g = .zero r := by
  cases f with
  | notANumber => cases h
  | zero s =>
    cases g with
    | notANumber => cases h
    | zero r => exact .inr ⟨s, r, rfl, rfl⟩
    | infinity r => cases r <;> cases h
    | finite r m e hm => cases r <;> cases h
  | infinity s =>
    cases g with
    | notANumber => cases h
    | infinity r => cases s <;> cases r <;> first | exact .inl rfl | cases h
    | _ => cases s <;> cases h
  | finite s m e hm =>
    cases g with
    | notANumber => cases h
    | zero r => cases s <;> cases h
    | infinity r => cases s <;> cases r <;> cases h
    | finite r k d hk =>
      cases s <;> cases r <;>
        simp only [UnpackedFloat.compare, Option.some.injEq, reduceCtorEq, Ordering.swap_eq_eq,
          Ordering.then_eq_eq, compare_eq_iff_eq] at h
      all_goals
        obtain ⟨rfl, rfl⟩ := h
        exact .inl rfl

/-- Adding a zero makes one zero of the two. -/
theorem add_zero_of_compare {f g : UnpackedFloat} (h : f.compare g = some .eq) :
    UnpackedFloat.add Format.binary64 f (.zero .positive) =
      UnpackedFloat.add Format.binary64 g (.zero .positive) := by
  rcases eq_or_zero_of_compare h with rfl | ⟨s, r, rfl, rfl⟩
  · rfl
  · cases s <;> cases r <;> rfl

instance : Fingerprinted Float where
  digest_eq {a b} h := by
    have hadd := add_zero_of_compare (eq_of_beq h)
    exact congrArg (fun f => (Float.Model.pack f).toBits) hadd

end Fluxion.Double
