/-
The words of an expression's text: identifiers and unsigned numbers. In a
text each of them is followed by a character that cannot continue it
(`Stops`), so what the word is and where it ends can be told from the text
alone (`cancel`).

A number may hold a sign, but only in its exponent. As a number ends in a
digit, a sign after it does not belong to it.
-/
import Mathlib.Data.List.Chain

namespace Fluxion.Text

/-! ## Names -/

/-- A character that begins a name. Beyond ASCII every character may, so
that the letters of all scripts do. -/
def isNameStart (c : Char) : Bool := c.isAlpha || c == '_' || 128 ≤ c.toNat

/-- A character that continues a name. -/
def isNamePart (c : Char) : Bool := isNameStart c || c.isDigit

/-- A character that begins a name, then characters that continue it. -/
def isName : List Char → Bool
  | [] => false
  | c :: cs => isNameStart c && cs.all isNamePart

/-- The text is an identifier; those written in other scripts are among
them. -/
def IsIdentifier (s : String) : Prop := isName s.toList = true

instance (s : String) : Decidable (IsIdentifier s) := inferInstanceAs (Decidable (_ = true))

theorem isName_iff {w : List Char} :
    isName w = true ↔ ∃ c cs, w = c :: cs ∧ isNameStart c = true ∧ cs.all isNamePart = true := by
  cases w <;> simp [isName]

theorem isNamePart_of_mem {w : List Char} (h : isName w = true) {c : Char} (hc : c ∈ w) :
    isNamePart c = true := by
  obtain ⟨d, ds, rfl, hd, hds⟩ := isName_iff.mp h
  rcases List.mem_cons.mp hc with rfl | hc
  · simp [isNamePart, hd]
  · exact List.all_eq_true.mp hds c hc

/-! ## Numbers -/

def isSign (c : Char) : Bool := c == '+' || c == '-'

def isNumberPart (c : Char) : Bool := c.isDigit || c == '.' || c == 'e' || isSign c

/-- An unsigned number: it begins and ends with a digit, and a sign stands
only after the letter of the exponent. -/
structure IsUnsigned (d : List Char) : Prop where
  head : ∃ c cs, d = c :: cs ∧ c.isDigit = true
  last : ∃ c cs, d = cs ++ [c] ∧ c.isDigit = true
  parts : ∀ c ∈ d, isNumberPart c = true
  signs : d.IsChain fun a b => isSign b = true → a = 'e'

/-- A number with or without a minus sign. -/
def IsNumber (d : List Char) : Prop := IsUnsigned d ∨ ∃ u, d = '-' :: u ∧ IsUnsigned u

theorem isUnsigned_one : IsUnsigned ['1'] where
  head := ⟨'1', [], rfl, rfl⟩
  last := ⟨'1', [], rfl, rfl⟩
  parts c hc := by rw [List.mem_singleton.mp hc]; rfl
  signs := .singleton '1'

/-- Digits without a sign have none in the wrong place. -/
theorem isChain_of_no_sign {d : List Char} (h : ∀ c ∈ d, isSign c = false) :
    d.IsChain fun a b => isSign b = true → a = 'e' := by
  induction d with
  | nil => exact List.isChain_nil
  | cons c d ih =>
    refine List.isChain_cons.mpr ⟨fun b hb hsign => ?_,
      ih fun b hb => h b (List.mem_cons_of_mem c hb)⟩
    rw [h b (List.mem_cons_of_mem c (List.mem_of_mem_head? hb))] at hsign
    cases hsign

theorem isSign_of_isDigit {c : Char} (h : c.isDigit = true) : isSign c = false := by
  rw [isSign, Bool.or_eq_false_iff, beq_eq_false_iff_ne, beq_eq_false_iff_ne]
  constructor <;> rintro rfl <;> cases h

namespace IsUnsigned

variable {ds fs : List Char}

theorem digits (hds : ∀ c ∈ ds, c.isDigit = true) (hne : ds ≠ []) : IsUnsigned ds where
  head := by
    obtain ⟨c, cs, rfl⟩ := List.exists_cons_of_ne_nil hne
    exact ⟨c, cs, rfl, hds c List.mem_cons_self⟩
  last := ⟨_, _, (List.dropLast_append_getLast hne).symm, hds _ (List.getLast_mem hne)⟩
  parts c hc := by simp [isNumberPart, hds c hc]
  signs := isChain_of_no_sign fun c hc => isSign_of_isDigit (hds c hc)

theorem fraction (hds : ∀ c ∈ ds, c.isDigit = true) (hne : ds ≠ [])
    (hfs : ∀ c ∈ fs, c.isDigit = true) (hne' : fs ≠ []) : IsUnsigned (ds ++ '.' :: fs) := by
  have parts : ∀ c ∈ ds ++ '.' :: fs, c.isDigit = true ∨ c = '.' := by
    intro c hc
    rcases List.mem_append.mp hc with hc | hc
    · exact .inl (hds c hc)
    rcases List.mem_cons.mp hc with rfl | hc
    · exact .inr rfl
    · exact .inl (hfs c hc)
  obtain ⟨a, as, ha, hdigit⟩ := (digits hds hne).head
  obtain ⟨b, bs, hb, hdigit'⟩ := (digits hfs hne').last
  refine ⟨⟨a, as ++ '.' :: fs, by rw [ha]; rfl, hdigit⟩,
    ⟨b, ds ++ '.' :: bs, by rw [hb]; simp, hdigit'⟩, fun c hc => ?_,
    isChain_of_no_sign fun c hc => ?_⟩
  · rcases parts c hc with h | rfl
    · simp [isNumberPart, h]
    · rfl
  · rcases parts c hc with h | rfl
    · exact isSign_of_isDigit h
    · rfl

theorem exponent {u : List Char} {sign : Char} (hu : IsUnsigned u) (hsign : isSign sign = true)
    (hds : ∀ c ∈ ds, c.isDigit = true) (hne : ds ≠ []) : IsUnsigned (u ++ 'e' :: sign :: ds) := by
  obtain ⟨a, as, ha, hdigit⟩ := hu.head
  obtain ⟨b, bs, hb, hdigit'⟩ := (digits hds hne).last
  have hno : ∀ c ∈ ds, isSign c = false := fun c hc => isSign_of_isDigit (hds c hc)
  refine ⟨⟨a, as ++ 'e' :: sign :: ds, by rw [ha]; rfl, hdigit⟩,
    ⟨b, u ++ 'e' :: sign :: bs, by rw [hb]; simp, hdigit'⟩, fun c hc => ?_, ?_⟩
  · rcases List.mem_append.mp hc with hc | hc
    · exact hu.parts c hc
    rcases List.mem_cons.mp hc with rfl | hc
    · rfl
    rcases List.mem_cons.mp hc with rfl | hc
    · simp [isNumberPart, hsign]
    · exact (digits hds hne).parts c hc
  · refine List.isChain_append.mpr ⟨hu.signs, List.isChain_cons_cons.mpr ⟨fun _ => rfl,
      List.isChain_cons.mpr ⟨fun c hc h => ?_, isChain_of_no_sign hno⟩⟩, fun _ _ c hc h => ?_⟩
    · rw [hno c (List.mem_of_mem_head? hc)] at h
      cases h
    · obtain rfl : 'e' = c := by simpa using hc
      cases h

end IsUnsigned

/-! ## Classes of characters -/

theorem toNat_of_isAlpha {c : Char} (h : c.isAlpha = true) :
    65 ≤ c.toNat ∧ c.toNat ≤ 90 ∨ 97 ≤ c.toNat ∧ c.toNat ≤ 122 := by
  rcases Bool.or_eq_true_iff.mp h with h | h
  · exact .inl (of_decide_eq_true h)
  · exact .inr ((Bool.and_eq_true_iff.mp h).imp of_decide_eq_true of_decide_eq_true)

theorem toNat_of_isDigit {c : Char} (h : c.isDigit = true) : 48 ≤ c.toNat ∧ c.toNat ≤ 57 :=
  (Bool.and_eq_true_iff.mp h).imp of_decide_eq_true of_decide_eq_true

theorem not_isDigit_of_isNameStart {c : Char} (h : isNameStart c = true) : c.isDigit = false := by
  rw [isNameStart, Bool.or_eq_true, Bool.or_eq_true, beq_iff_eq, decide_eq_true_iff] at h
  rw [Bool.eq_false_iff]
  intro hd
  have hdigit := toNat_of_isDigit hd
  rcases h with (h | rfl) | h
  · have halpha := toNat_of_isAlpha h
    omega
  · exact absurd hd (by decide)
  · omega

/-! ## Where a word ends -/

/-- No name or number goes on in the rest of the text. -/
def Stops : List Char → Prop
  | [] => True
  | c :: _ => isNamePart c = false ∧ c ≠ '.'

/-- Of two words with rests that stop, neither goes on where the other
ends; the two are then the same. -/
theorem cancel {P : List Char → Prop}
    (longer : ∀ {w c m k}, P w → P (w ++ c :: m) → ¬ Stops (c :: k)) {w w' r s : List Char}
    (hw : P w) (hw' : P w') (hr : Stops r) (hs : Stops s) (h : w ++ r = w' ++ s) :
    w = w' ∧ r = s := by
  rcases List.append_eq_append_iff.mp h with ⟨m, rfl, rfl⟩ | ⟨m, rfl, rfl⟩
  · cases m with
    | nil => exact ⟨(List.append_nil w).symm, rfl⟩
    | cons c m => exact absurd hr (longer hw hw')
  · cases m with
    | nil => exact ⟨List.append_nil w', rfl⟩
    | cons c m => exact absurd hs (longer hw' hw)

theorem cancel_name {w w' r s : List Char} (hw : isName w = true) (hw' : isName w' = true)
    (hr : Stops r) (hs : Stops s) (h : w ++ r = w' ++ s) : w = w' ∧ r = s := by
  refine cancel (P := fun w => isName w = true) (fun {w c m k} _ hw' hk => ?_) hw hw' hr hs h
  have hc : isNamePart c = true := isNamePart_of_mem hw' (by simp)
  exact absurd hk.1 (by simp [hc])

/-- What continues a number is no sign, since a number ends in a digit. -/
theorem cancel_number {d d' r s : List Char} (hd : IsUnsigned d) (hd' : IsUnsigned d')
    (hr : Stops r) (hs : Stops s) (h : d ++ r = d' ++ s) : d = d' ∧ r = s := by
  refine cancel (fun {w c m k} hw hw' hk => ?_) hd hd' hr hs h
  obtain ⟨a, as, rfl, ha⟩ := hw.last
  have hc : isNumberPart c = true := hw'.parts c (by simp)
  simp only [isNumberPart, Bool.or_eq_true, beq_iff_eq] at hc
  rcases hc with ((hc | rfl) | rfl) | hc
  · exact absurd hk.1 (by simp [isNamePart, hc])
  · exact hk.2 rfl
  · exact absurd hk.1 (by decide)
  · have hsigns := hw'.signs
    rw [List.append_assoc, List.isChain_append] at hsigns
    have : a = 'e' := (List.isChain_cons_cons.mp hsigns.2.1).1 hc
    subst this
    exact absurd ha (by decide)

end Fluxion.Text
