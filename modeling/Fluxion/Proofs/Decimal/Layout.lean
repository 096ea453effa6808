/-
What a decimal is once it is laid out. `worth` reads a layout as the reader
of numbers does, digits, point and exponent; it finds the number that was
laid out (`worth_layout`). A layout of a number above zero is an unsigned
number (`isUnsigned_layout`).

Both follow from what the layouts have in common: digits on either side of
a point, or digits with an exponent (`layout_cases`).
-/
import Fluxion.Decimal.Reader
import Fluxion.Proofs.Decimal.Interval
import Fluxion.Proofs.Text.Lexeme

namespace Fluxion.Decimal

open Text (IsUnsigned)

/-! ## Digits -/

variable {ds ws fs rest : List Char}

theorem takeDigits_cons {c : Char} (hc : c.isDigit = true) (hnext : ∀ d ∈ rest.head?, d ≠ '_') :
    takeDigits (c :: rest) = (c :: (takeDigits rest).1, (takeDigits rest).2) := by
  rw [takeDigits.eq_2]
  · simp [hc]
  · rintro d rest rfl
    exact absurd rfl (hnext '_' rfl)

/-- Digits are taken up to a character that does not go on with them. -/
theorem takeDigits_append (hds : ∀ c ∈ ds, c.isDigit = true)
    (hrest : ∀ c ∈ rest.head?, c.isDigit = false ∧ c ≠ '_') :
    takeDigits (ds ++ rest) = (ds, rest) := by
  induction ds with
  | nil =>
    cases rest with
    | nil => rfl
    | cons c rest =>
      obtain ⟨hc, -⟩ := hrest c rfl
      rw [List.nil_append]
      unfold takeDigits
      split <;> simp_all
  | cons d ds ih =>
    obtain ⟨hd, hds⟩ := List.forall_mem_cons.mp hds
    have hnext : ∀ c ∈ (ds ++ rest).head?, c ≠ '_' := by
      intro c hc
      cases ds with
      | nil => exact (hrest c hc).2
      | cons e ds =>
        obtain rfl : e = c := by simpa using hc
        rintro rfl
        exact absurd (hds '_' List.mem_cons_self) (by decide)
    rw [List.cons_append, takeDigits_cons hd hnext, ih hds]

theorem takeDigits_self (hds : ∀ c ∈ ds, c.isDigit = true) : takeDigits ds = (ds, []) := by
  have h : takeDigits (ds ++ []) = (ds, []) := takeDigits_append hds (by simp)
  rwa [List.append_nil] at h

theorem valueOf_append (ds fs : List Char) :
    valueOf (ds ++ fs) = valueOf ds * 10 ^ fs.length + valueOf fs := by
  have happend : valueOf (ds ++ fs) = Nat.ofDigitChars 10 fs (valueOf ds) := by
    rw [valueOf, List.foldl_append]
    rfl
  rw [happend, Nat.ofDigitChars_eq_ofDigitChars_zero, Nat.mul_comm]
  rfl

theorem valueOf_zeros (n : ℕ) : valueOf (zeros n) = 0 := by
  have hzeros : valueOf (zeros n) = Nat.ofDigitChars 10 (List.replicate n '0') 0 := rfl
  rw [hzeros, Nat.ofDigitChars_replicate_zero, Nat.mul_zero]

theorem valueOf_digitsOf (n : ℕ) : valueOf (digitsOf n) = n := Nat.ofDigitChars_ten_toDigits

theorem isDigit_of_mem_digitsOf {n : ℕ} {c : Char} (h : c ∈ digitsOf n) : c.isDigit = true :=
  Nat.isDigit_of_mem_toDigits (by decide) (by decide) h

theorem isDigit_of_mem_zeros {n : ℕ} {c : Char} (h : c ∈ zeros n) : c.isDigit = true := by
  rw [List.eq_of_mem_replicate h]
  rfl

/-- Only zeros are dropped at the end. -/
theorem exists_zeros (ds : List Char) : ∃ n, ds = stripZeros ds ++ zeros n := by
  have hzeros : ds.reverse.takeWhile (fun c => c == '0') =
      zeros (ds.reverse.takeWhile fun c => c == '0').length :=
    List.eq_replicate_of_mem fun c hc => by simpa using List.mem_takeWhile_imp hc
  refine ⟨(ds.reverse.takeWhile fun c => c == '0').length, ?_⟩
  rw [← List.reverse_inj, stripZeros, List.reverse_append, List.reverse_reverse, zeros,
    List.reverse_replicate, ← zeros, ← hzeros, List.takeWhile_append_dropWhile]

/-! ## Reading a layout -/

/-- The number that a layout spells. -/
def worth (cs : List Char) : ℚ :=
  let whole := takeDigits cs
  let fraction := takeFraction whole.2
  match takeExponent fraction.2 with
  | some (e, []) => valueOf (whole.1 ++ fraction.1) * 10 ^ (e - (fraction.1.length : ℤ))
  | _ => 0

def exponentDigits (e : ℤ) : List Char :=
  if (digitsOf e.natAbs).length < 2 then '0' :: digitsOf e.natAbs else digitsOf e.natAbs

theorem exponentText_eq (e : ℤ) :
    exponentText e = 'e' :: (if e < 0 then '-' else '+') :: exponentDigits e := rfl

theorem isDigit_of_mem_exponentDigits {e : ℤ} {c : Char} (h : c ∈ exponentDigits e) :
    c.isDigit = true := by
  unfold exponentDigits at h
  split at h
  · rcases List.mem_cons.mp h with rfl | h
    · rfl
    · exact isDigit_of_mem_digitsOf h
  · exact isDigit_of_mem_digitsOf h

theorem exponentDigits_ne_nil (e : ℤ) : exponentDigits e ≠ [] := by
  unfold exponentDigits
  split
  · exact List.cons_ne_nil _ _
  · exact Nat.toDigits_ne_nil

theorem valueOf_exponentDigits (e : ℤ) : valueOf (exponentDigits e) = e.natAbs := by
  unfold exponentDigits
  split
  · rw [← List.singleton_append, valueOf_append, valueOf_digitsOf, show valueOf ['0'] = 0 from rfl,
      Nat.zero_mul, Nat.zero_add]
  · exact valueOf_digitsOf _

theorem takeExponent_exponentText (e : ℤ) : takeExponent (exponentText e) = some (e, []) := by
  have hdigits : takeDigits (exponentDigits e) = (exponentDigits e, []) :=
    takeDigits_self fun _ => isDigit_of_mem_exponentDigits
  have hne := exponentDigits_ne_nil e
  by_cases he : e < 0
  · simp [exponentText_eq, takeExponent, takeSign, hdigits, hne, valueOf_exponentDigits, he,
      abs_of_neg he]
  · simp [exponentText_eq, takeExponent, takeSign, hdigits, hne, valueOf_exponentDigits, he,
      abs_of_nonneg (not_lt.mp he)]

theorem head_exponentText (e : ℤ) : ∀ c ∈ (exponentText e).head?, c.isDigit = false ∧ c ≠ '_' := by
  rw [exponentText_eq]
  simp

section

variable {ex : List Char} {e : ℤ} (hex : takeExponent ex = some (e, []))
  (hend : ∀ c ∈ ex.head?, c.isDigit = false ∧ c ≠ '_')

include hex hend

/-- A number with a point, before what is left as the exponent. -/
theorem worth_point (hws : ∀ c ∈ ws, c.isDigit = true) (hfs : ∀ c ∈ fs, c.isDigit = true) :
    worth (ws ++ '.' :: fs ++ ex) = valueOf (ws ++ fs) * 10 ^ (e - (fs.length : ℤ)) := by
  have hwhole : takeDigits (ws ++ '.' :: fs ++ ex) = (ws, '.' :: (fs ++ ex)) := by
    rw [List.append_assoc]
    exact takeDigits_append hws (by simp)
  simp only [worth, hwhole, takeFraction, takeDigits_append hfs hend, hex]

/-- A number without. -/
theorem worth_whole (hws : ∀ c ∈ ws, c.isDigit = true) (hpoint : ∀ c ∈ ex.head?, c ≠ '.') :
    worth (ws ++ ex) = valueOf ws * 10 ^ e := by
  have hfraction : takeFraction ex = ([], ex) := by
    unfold takeFraction
    split
    · exact absurd rfl (hpoint '.' rfl)
    · rfl
  simp [worth, takeDigits_append hws hend, hfraction, hex]

end

/-! ## The layouts -/

def layout (d : Decimal) : List Char :=
  let all := digitsOf d.digits
  let point := (all.length : ℤ) + d.exponent
  let ds := stripZeros all
  if -4 < point && point ≤ 16 then
    if (ds.length : ℤ) ≤ point then positional ds point ++ ['.', '0'] else positional ds point
  else withExponent ds (point - 1)

/-- With a point the digits of a number stand on either side of it. -/
theorem exists_positional (point : ℤ) (hds : ∀ c ∈ ds, c.isDigit = true) (hne : ds ≠ []) :
    ∃ ws fs : List Char, (if (ds.length : ℤ) ≤ point then positional ds point ++ ['.', '0']
        else positional ds point) = ws ++ '.' :: fs ∧
      ((∀ c ∈ ws, c.isDigit = true) ∧ ws ≠ []) ∧ ((∀ c ∈ fs, c.isDigit = true) ∧ fs ≠ []) ∧
      (valueOf (ws ++ fs) : ℚ) * 10 ^ (-(fs.length : ℤ)) =
        valueOf ds * 10 ^ (point - (ds.length : ℤ)) := by
  have hlength : 0 < ds.length := List.length_pos_iff.mpr hne
  have happend {cs cs' : List Char} (h : ∀ c ∈ cs, c.isDigit = true)
      (h' : ∀ c ∈ cs', c.isDigit = true) : ∀ c ∈ cs ++ cs', c.isDigit = true :=
    List.forall_mem_append.mpr ⟨h, h'⟩
  have hzeros (n : ℕ) : ∀ c ∈ zeros n, c.isDigit = true := fun _ => isDigit_of_mem_zeros
  have hzero : ∀ c ∈ ['0'], c.isDigit = true := hzeros 1
  unfold positional
  by_cases hpoint : point ≤ 0
  · rw [if_neg (by omega), if_pos hpoint]
    refine ⟨['0'], zeros (-point).toNat ++ ds, rfl, ⟨hzero, by simp⟩,
      ⟨happend (hzeros _) hds, by simp [hne]⟩, ?_⟩
    have hvalue : valueOf (['0'] ++ (zeros (-point).toNat ++ ds)) = valueOf ds := by
      rw [valueOf_append, valueOf_append, valueOf_zeros, show valueOf ['0'] = 0 from rfl]
      simp
    have hexp : -((zeros (-point).toNat ++ ds).length : ℤ) = point - ds.length := by
      simp [zeros]
      omega
    rw [hvalue, hexp]
  rw [if_neg hpoint]
  by_cases hlast : (ds.length : ℤ) ≤ point
  · rw [if_pos hlast, if_pos hlast]
    refine ⟨ds ++ zeros (point.toNat - ds.length), ['0'], rfl,
      ⟨happend hds (hzeros _), by simp [hne]⟩, ⟨hzero, by simp⟩, ?_⟩
    obtain ⟨k, rfl⟩ : ∃ k : ℕ, point = ds.length + k := ⟨(point - ds.length).toNat, by omega⟩
    have hk : ((ds.length + k : ℤ).toNat - ds.length) = k := by omega
    have hvalue : valueOf (ds ++ zeros k ++ ['0']) = valueOf ds * 10 ^ k * 10 := by
      rw [valueOf_append, valueOf_append, valueOf_zeros, show valueOf ['0'] = 0 from rfl]
      simp [zeros]
    rw [hk, hvalue, add_sub_cancel_left, zpow_natCast]
    push_cast
    rw [mul_assoc, show (10 : ℚ) * 10 ^ (-(['0'].length : ℤ)) = 1 by norm_num, mul_one]
  · rw [if_neg hlast, if_neg hlast]
    refine ⟨ds.take point.toNat, ds.drop point.toNat, rfl,
      ⟨fun c hc => hds c (List.mem_of_mem_take hc), ?_⟩,
      ⟨fun c hc => hds c (List.mem_of_mem_drop hc), ?_⟩, ?_⟩
    · simp [hne]
      omega
    · simp
      omega
    · have hexp : -((ds.drop point.toNat).length : ℤ) = point - ds.length := by
        rw [List.length_drop]
        omega
      rw [List.take_append_drop, hexp]

/-- With an exponent they stand before it, the first before a point. -/
theorem withExponent_cons (c : Char) (fs : List Char) (e : ℤ) :
    withExponent (c :: fs) e =
      if fs = [] then [c] ++ exponentText e else [c] ++ '.' :: fs ++ exponentText e := by
  cases fs <;> rfl

/-- What the layout of a number is made from: digits, and a point after some
of them. -/
structure IsLaid (d : Decimal) (ds : List Char) (point : ℤ) : Prop where
  digits : ∀ c ∈ ds, c.isDigit = true
  ne_nil : ds ≠ []
  value : d.value = valueOf ds * 10 ^ (point - (ds.length : ℤ))

variable {d : Decimal}

theorem isLaid (hd : 0 < d.digits) :
    IsLaid d (stripZeros (digitsOf d.digits)) ((digitsOf d.digits).length + d.exponent) := by
  obtain ⟨n, hn⟩ := exists_zeros (digitsOf d.digits)
  have hdigits : d.digits = valueOf (stripZeros (digitsOf d.digits)) * 10 ^ n := by
    have hvalue := congrArg valueOf hn
    rw [valueOf_append, valueOf_zeros, valueOf_digitsOf] at hvalue
    simpa [zeros] using hvalue
  have hlength : (digitsOf d.digits).length = (stripZeros (digitsOf d.digits)).length + n := by
    have hlength := congrArg List.length hn
    simpa [zeros] using hlength
  refine ⟨fun c hc => isDigit_of_mem_digitsOf (n := d.digits) ?_, fun h => ?_, ?_⟩
  · rw [hn]
    exact List.mem_append_left _ hc
  · rw [h] at hdigits
    rw [hdigits] at hd
    exact absurd hd (by simp [valueOf])
  · have hexp : ((digitsOf d.digits).length : ℤ) + d.exponent -
        (stripZeros (digitsOf d.digits)).length = n + d.exponent := by omega
    rw [hexp, value, zpow_add₀ (by norm_num), zpow_natCast, ← mul_assoc]
    congr 1
    exact_mod_cast hdigits

/-- **A layout spells the number** that was laid out. -/
theorem worth_layout (hd : 0 < d.digits) : worth (layout d) = d.value := by
  obtain ⟨hds, hne, hvalue⟩ := isLaid hd
  unfold layout
  dsimp only
  generalize stripZeros (digitsOf d.digits) = ds at *
  generalize ((digitsOf d.digits).length : ℤ) + d.exponent = point at *
  rw [hvalue]
  split
  · obtain ⟨ws, fs, hbody, ⟨hws, -⟩, ⟨hfs, -⟩, hworth⟩ := exists_positional point hds hne
    have hpoint : worth (ws ++ '.' :: fs ++ []) = valueOf (ws ++ fs) * 10 ^ (0 - (fs.length : ℤ)) :=
      worth_point rfl (by simp) hws hfs
    rw [List.append_nil, zero_sub] at hpoint
    rw [hbody, hpoint, hworth]
  · obtain ⟨c, fs, rfl⟩ := List.exists_cons_of_ne_nil hne
    obtain ⟨hc, hfs⟩ := List.forall_mem_cons.mp hds
    have hex := takeExponent_exponentText (point - 1)
    have hend := head_exponentText (point - 1)
    have hlead : ∀ a ∈ [c], a.isDigit = true := by simpa using hc
    rw [withExponent_cons]
    split
    · next h =>
      subst h
      exact worth_whole hex hend hlead (by simp [exponentText_eq])
    · rw [worth_point hex hend hlead hfs]
      congr 2
      simp
      omega

/-- **A layout is an unsigned number.** -/
theorem isUnsigned_layout (hd : 0 < d.digits) : IsUnsigned (layout d) := by
  obtain ⟨hds, hne, -⟩ := isLaid hd
  unfold layout
  dsimp only
  generalize stripZeros (digitsOf d.digits) = ds at *
  generalize ((digitsOf d.digits).length : ℤ) + d.exponent = point at *
  split
  · obtain ⟨ws, fs, hbody, ⟨hws, hws'⟩, ⟨hfs, hfs'⟩, -⟩ := exists_positional point hds hne
    rw [hbody]
    exact .fraction hws hws' hfs hfs'
  · obtain ⟨c, fs, rfl⟩ := List.exists_cons_of_ne_nil hne
    obtain ⟨hc, hfs⟩ := List.forall_mem_cons.mp hds
    have hlead : ∀ a ∈ [c], a.isDigit = true := by simpa using hc
    have hexponent {u : List Char} (hu : IsUnsigned u) :
        IsUnsigned (u ++ exponentText (point - 1)) := by
      rw [exponentText_eq]
      refine hu.exponent ?_ (fun _ => isDigit_of_mem_exponentDigits) (exponentDigits_ne_nil _)
      split <;> rfl
    rw [withExponent_cons]
    split
    · exact hexponent (.digits hlead (by simp))
    · next h => exact hexponent (.fraction hlead (by simp) hfs h)

end Fluxion.Decimal
