/-
What compact texts decide: trees whose compact texts agree have the same
exact value wherever either has one.

The compact text is the text of a spelled tree (`spell`), literals being
replaced by their texts and a bracketed negative literal by a negation, in
which every `v ^ 1` is written `v` (`collapse`). Since a text is the text
of one tree only, equal compact texts come from equal collapsed trees; and
neither step changes the value.

`Spelled α` is what is asked of the texts of numbers: different numbers
have different texts, and a text is an unsigned number after a possible
minus sign. `IsReading` is what is asked of their values; that the kernels
compute with them is not needed.
-/
import Fluxion.Tree.Printer
import Fluxion.Proofs.Tree.Layout
import Fluxion.Proofs.Tree.Over

namespace Fluxion

open Text

/-- Finite numbers that are spelled apart. -/
class Spelled (α : Type) [Scalar α] [Numeral α] : Prop where
  text_one : Numeral.text (Scalar.one : α) = "1"
  isUnsigned {a : α} (h : Scalar.isFinite a = true) (h₀ : Scalar.lt a Scalar.zero = false) :
    IsUnsigned (Numeral.text a).toList
  /-- A number below zero is its opposite after a minus sign. -/
  text_neg {a : α} (h : Scalar.isFinite a = true) (h₀ : Scalar.lt a Scalar.zero = true) :
    Numeral.text a = "-" ++ Numeral.text (Scalar.neg a) ∧
      Scalar.isFinite (Scalar.neg a) = true ∧ Scalar.lt (Scalar.neg a) Scalar.zero = false
  eq_of_text {a b : α} (ha : Scalar.isFinite a = true) (hb : Scalar.isFinite b = true)
    (h : Numeral.text a = Numeral.text b) : Scalar.eq a b = true

/-- A reading of numbers by their value: finite numbers have one, opposites
have opposite ones and equal numbers the same. -/
structure IsReading {α K : Type} [Scalar α] [Field K] (read : α → Option K) : Prop where
  isFinite_iff {a : α} : Scalar.isFinite a = true ↔ ∃ x, read a = some x
  one : read Scalar.one = some 1
  neg {a : α} {x : K} (h : read a = some x) : read (Scalar.neg a) = some (-x)
  eq {a b : α} {x y : K} (ha : read a = some x) (hb : read b = some y)
    (h : Scalar.eq a b = true) : x = y

theorem isReading_reading {α K : Type} [Scalar α] [Field K] [LinearOrder K] [Elementary K]
    [Exact α K] : IsReading (Exact.reading : α → Option K) where
  isFinite_iff := ⟨Exact.reading_of_isFinite, fun ⟨_, h⟩ => Exact.isFinite_of_reading h⟩
  one := Exact.reading_one
  neg := Exact.reading_neg
  eq ha hb h := (Exact.eq_iff ha hb).mp h

namespace Tree

variable {α : Type} [Scalar α] [Numeral α]

/-! ## Texts without blanks -/

/-- The characters of a text that are no blanks. -/
def packed (s : String) : List Char := s.toList.filter fun c => c ≠ ' '

theorem packed_append (s t : String) : packed (s ++ t) = packed s ++ packed t := by
  simp [packed]

theorem packed_eq_self {s : String} (h : ∀ c ∈ s.toList, c ≠ ' ') : packed s = s.toList := by
  simpa [packed] using h

theorem packed_identifier {x : String} (h : IsIdentifier x) : packed x = x.toList := by
  refine packed_eq_self ?_
  rintro c hc rfl
  exact absurd (isNamePart_of_mem h hc) (by decide)

variable [Spelled α]

theorem isNumber_text {a : α} (h : Scalar.isFinite a = true) :
    IsNumber (Numeral.text a).toList := by
  cases h₀ : Scalar.lt a Scalar.zero with
  | false => exact .inl (Spelled.isUnsigned h h₀)
  | true =>
    obtain ⟨htext, hfin, hpos⟩ := Spelled.text_neg h h₀
    exact .inr ⟨_, by rw [htext]; simp, Spelled.isUnsigned hfin hpos⟩

theorem packed_text {a : α} (h : Scalar.isFinite a = true) :
    packed (Numeral.text a) = (Numeral.text a).toList := by
  refine packed_eq_self ?_
  rintro c hc rfl
  rcases isNumber_text h with hu | ⟨u, hu, hu'⟩
  · exact absurd (hu.parts _ hc) (by decide)
  · rw [hu] at hc
    rcases List.mem_cons.mp hc with hc | hc
    · exact absurd hc (by decide)
    · exact absurd (hu'.parts _ hc) (by decide)

/-! ## Spelled trees -/

omit [Spelled α] in
/-- An operand as it is spelled: the brackets around a negative literal
are those of a negation. -/
def spellOperand (t : Tree α) (s : Tree String) : Tree String :=
  match t with
  | .const a =>
    if Scalar.lt a Scalar.zero then .unary .neg (.const (Numeral.text (Scalar.neg a))) else s
  | _ => s

omit [Spelled α] in
/-- The tree with literals replaced by their texts. -/
def spell : Tree α → Tree String
  | .var x => .var x
  | .const a => .const (Numeral.text a)
  | .binary op l r => .binary op (spellOperand l l.spell) (spellOperand r r.spell)
  | .unary op u => .unary op u.spell
  | .relate rel l r => .relate rel (spellOperand l l.spell) (spellOperand r r.spell)
  | .branch c t f => .branch c.spell t.spell f.spell

omit [Spelled α] in
theorem spellOperand_negative {a : α} (h : Scalar.lt a Scalar.zero = true) (s : Tree String) :
    spellOperand (.const a) s = .unary .neg (.const (Numeral.text (Scalar.neg a))) :=
  if_pos h

omit [Spelled α] in
theorem spellOperand_other {t : Tree α} (h : t.isNegativeLiteral = false) (s : Tree String) :
    spellOperand t s = s := by
  cases t with
  | const a => exact if_neg (by rw [show Scalar.lt a Scalar.zero = false from h]; exact nofun)
  | _ => rfl

theorem legible_spellOperand {t : Tree α} (ht : t.Over IsIdentifier) (h : t.spell.Legible) :
    (spellOperand t t.spell).Legible ∧ ¬ (spellOperand t t.spell).IsNegative := by
  cases hneg : t.isNegativeLiteral with
  | true =>
    cases t with
    | const a =>
      rw [spellOperand_negative hneg]
      exact ⟨isNumber_text (Spelled.text_neg ht hneg).2.1, not_false⟩
    | _ => cases hneg
  | false =>
    rw [spellOperand_other hneg]
    refine ⟨h, ?_⟩
    cases t with
    | const a =>
      rintro ⟨u, hu⟩
      obtain ⟨c, cs, hc, hdigit⟩ := (Spelled.isUnsigned ht hneg).head
      obtain ⟨rfl, -⟩ := List.cons.inj (hu.symm.trans hc)
      cases hdigit
    | _ => exact not_false

theorem legible_spell {t : Tree α} (h : t.Over IsIdentifier) : t.spell.Legible := by
  induction t with
  | var x => exact h
  | const a => exact isNumber_text h
  | binary op l r hl hr =>
    obtain ⟨hl', hneg⟩ := legible_spellOperand h.1 (hl h.1)
    exact ⟨hl', (legible_spellOperand h.2 (hr h.2)).1, hneg⟩
  | unary op u hu => exact hu h
  | relate rel l r hl hr =>
    obtain ⟨hl', hneg⟩ := legible_spellOperand h.1 (hl h.1)
    exact ⟨hl', (legible_spellOperand h.2 (hr h.2)).1, hneg⟩
  | branch c t f hc ht hf => exact ⟨hc h.1, ht h.2.1, hf h.2.2⟩

theorem packed_guarded {t : Tree α} (ht : t.Over IsIdentifier)
    (h : ∀ k, packed t.text ++ k = t.spell.write k) (k : List Char) :
    packed (guarded t t.text) ++ k = (spellOperand t t.spell).write k := by
  cases hneg : t.isNegativeLiteral with
  | true =>
    cases t with
    | const a =>
      obtain ⟨htext, hfin, -⟩ := Spelled.text_neg ht hneg
      rw [spellOperand_negative hneg, guarded, if_pos hneg, text, htext]
      simp only [packed_append, packed_text hfin, write]
      simp [packed]
    | _ => cases hneg
  | false =>
    rw [spellOperand_other hneg, guarded, if_neg (by simp [hneg]), h]

/-- Without blanks the text of a tree is what is written of the spelled
tree. -/
theorem packed_text_eq_write {t : Tree α} (h : t.Over IsIdentifier) (k : List Char) :
    packed t.text ++ k = t.spell.write k := by
  induction t generalizing k with
  | var x => rw [text, packed_identifier h]; rfl
  | const a => rw [text, packed_text h]; rfl
  | binary op l r hl hr =>
    have hop : packed op.symbol = op.symbol.toList := by cases op <;> decide
    rw [spell, write, ← packed_guarded h.2 (hr h.2), ← packed_guarded h.1 (hl h.1)]
    simp only [text, packed_append, hop, List.append_assoc]
    simp [packed]
  | unary op u hu =>
    by_cases hop : op = .neg
    · subst hop
      rw [spell, write, ← hu h]
      simp only [text, packed_append, List.append_assoc]
      simp [packed]
    · have hsym : packed op.symbol = op.symbol.toList := by cases op <;> decide
      have htext : (Tree.unary op u).text = op.symbol ++ "(" ++ u.text ++ ")" := by
        cases op <;> first | exact absurd rfl hop | rfl
      rw [spell, write_unary hop, ← hu h, htext]
      simp only [packed_append, hsym, List.append_assoc]
      simp [packed]
  | relate rel l r hl hr =>
    have hrel : packed rel.symbol = rel.symbol.toList := by cases rel <;> decide
    rw [spell, write, ← packed_guarded h.2 (hr h.2), ← packed_guarded h.1 (hl h.1)]
    simp only [text, packed_append, hrel, List.append_assoc]
    simp [packed]
  | branch c t f hc ht hf =>
    rw [spell, write, ← hf h.2.2, ← ht h.2.1, ← hc h.1]
    simp only [text, packed_append, List.append_assoc]
    simp [packed]

end Tree

/-! ## First powers -/

namespace Tree

/-- Whether a node is `v ^ 1`. -/
def isFirstPower (v : String) : BinaryOp → Tree String → Tree String → Bool
  | .pow, .var x, .const s => x == v && s == "1"
  | _, _, _ => false

/-- Every `v ^ 1` replaced by `v`, from the root down. -/
def collapse (v : String) : Tree String → Tree String
  | .var x => .var x
  | .const s => .const s
  | .binary op l r =>
    if isFirstPower v op l r then .var v else .binary op (l.collapse v) (r.collapse v)
  | .unary op u => .unary op (u.collapse v)
  | .relate rel l r => .relate rel (l.collapse v) (r.collapse v)
  | .branch c t f => .branch (c.collapse v) (t.collapse v) (f.collapse v)

theorem isFirstPower_iff {v : String} {op : BinaryOp} {l r : Tree String} :
    isFirstPower v op l r = true ↔ op = .pow ∧ l = .var v ∧ r = .const "1" := by
  unfold isFirstPower
  split
  · simp
  · next h =>
    simp only [Bool.false_eq_true, false_iff]
    rintro ⟨rfl, rfl, rfl⟩
    exact h _ _ rfl rfl rfl

theorem isNegative_collapse {v : String} {t : Tree String} (h : (t.collapse v).IsNegative) :
    t.IsNegative := by
  cases t with
  | const s => exact h
  | binary op l r =>
    rw [collapse] at h
    split at h <;> exact h
  | _ => exact h

theorem legible_collapse {v : String} (hv : IsIdentifier v) {t : Tree String} (h : t.Legible) :
    (t.collapse v).Legible := by
  induction t with
  | var x => exact h
  | const s => exact h
  | binary op l r hl hr =>
    rw [collapse]
    split
    · exact hv
    · exact ⟨hl h.1, hr h.2.1, fun hneg => h.2.2 (isNegative_collapse hneg)⟩
  | unary op u hu => exact hu h
  | relate rel l r hl hr =>
    exact ⟨hl h.1, hr h.2.1, fun hneg => h.2.2 (isNegative_collapse hneg)⟩
  | branch c t f hc ht hf => exact ⟨hc h.1, ht h.2.1, hf h.2.2⟩

/-! ## Replacing in the text -/

/-- What is searched for, without its bracket: the text of `v ^ 1`. -/
def powerTail (v : String) : List Char := v.toList ++ ['^', '1', ')']

/-- The text with `(v^1)` replaced by `v`. -/
def replaced (v : String) (cs : List Char) : List Char :=
  replaceFrom ('(' :: powerTail v) v.toList 0 cs

theorem replaced_append {v : String} {w : List Char} (h : '(' ∉ w) (k : List Char) :
    replaced v (w ++ k) = w ++ replaced v k := by
  induction w with
  | nil => rfl
  | cons c w ih =>
    have hc : c ≠ '(' := fun hc => h (by simp [hc])
    have ih := ih fun hw => h (by simp [hw])
    rw [List.cons_append, replaced, replaceFrom, if_neg (by simp [hc.symm])]
    exact congrArg (c :: ·) ih

theorem replaced_cons {v : String} {c : Char} (h : c ≠ '(') (k : List Char) :
    replaced v (c :: k) = c :: replaced v k :=
  replaced_append (w := [c]) (by simp [h.symm]) k

theorem replaceFrom_skip (pat new w k : List Char) :
    replaceFrom pat new w.length (w ++ k) = replaceFrom pat new 0 k := by
  induction w with
  | nil => rfl
  | cons c w ih => exact ih

theorem replaced_match (v : String) (k : List Char) :
    replaced v ('(' :: (powerTail v ++ k)) = v.toList ++ replaced v k := by
  have hpre : ('(' :: powerTail v).isPrefixOf ('(' :: (powerTail v ++ k)) = true :=
    List.isPrefixOf_iff_prefix.mpr ⟨k, rfl⟩
  rw [replaced, replaceFrom, if_pos hpre]
  exact congrArg _ (replaceFrom_skip _ _ (powerTail v) k)

theorem replaced_bracket {v : String} {cs : List Char} (h : ∀ k, cs ≠ powerTail v ++ k) :
    replaced v ('(' :: cs) = '(' :: replaced v cs := by
  rw [replaced, replaceFrom, if_neg]
  · rfl
  · intro hpre
    obtain ⟨k, hk⟩ := List.isPrefixOf_iff_prefix.mp hpre
    exact h k (List.cons.inj hk).2.symm

/-- Only a tree that begins with `v` begins a match. -/
theorem first_of_match {v : String} (hv : IsIdentifier v) {t : Tree String} (ht : t.Legible)
    {k s : List Char} (hk : Closes k) (h : t.write k = powerTail v ++ s) :
    t = .var v ∧ k = '^' :: '1' :: ')' :: s := by
  refine write_inj ht (b := .var v) hv hk ?_ ?_
  · refine ⟨?_, ?_, ?_⟩ <;> decide
  · rw [h, powerTail, List.append_assoc]; rfl

theorem not_mem_joints {p : List Char} (h : p ∈ joints) : '(' ∉ p := by
  have all : ∀ p ∈ joints, '(' ∉ p := by decide
  exact all p h

theorem not_mem_name {w : List Char} (h : isName w = true) : '(' ∉ w :=
  fun hc => absurd (isNamePart_of_mem h hc) (by decide)

theorem not_mem_number {w : List Char} (h : IsNumber w) : '(' ∉ w := by
  intro hc
  rcases h with h | ⟨u, rfl, h⟩
  · exact absurd (h.parts _ hc) (by decide)
  · rcases List.mem_cons.mp hc with hc | hc
    · exact absurd hc (by decide)
    · exact absurd (h.parts _ hc) (by decide)

/-- Replacing in the text is collapsing the tree: a match is never part of
one node and part of another. -/
theorem replaced_write {v : String} (hv : IsIdentifier v) {t : Tree String} (ht : t.Legible)
    (k : List Char) : replaced v (t.write k) = (t.collapse v).write (replaced v k) := by
  induction t generalizing k with
  | var x => exact replaced_append (not_mem_name ht) k
  | const s => exact replaced_append (not_mem_number ht) k
  | binary op l r hl hr =>
    rw [collapse]
    split
    · next hpow =>
      obtain ⟨rfl, rfl, rfl⟩ := isFirstPower_iff.mp hpow
      have : (Tree.binary .pow (.var v) (.const "1")).write k = '(' :: (powerTail v ++ k) := by
        simp [write, powerTail, BinaryOp.symbol]
      rw [this, replaced_match]; rfl
    · next hpow =>
      rw [write, replaced_bracket, hl ht.1, replaced_append (not_mem_joints (symbol_mem_joints op)),
        hr ht.2.1, replaced_cons (by decide)]
      · rfl
      · intro s hs
        obtain ⟨rfl, hk⟩ := first_of_match hv ht.1 (closes_joint (symbol_mem_joints op) _) hs
        obtain ⟨hop, hk⟩ := cancel_joint (q := ['^']) (y := '1' :: ')' :: s)
          (symbol_mem_joints op) (by decide) (write_head_ne_eq ht.2.1 _) (by simp) hk
        obtain ⟨rfl, -⟩ := write_inj ht.2.1 (b := .const "1") (s := ')' :: s)
          (.inl isUnsigned_one)
          (closes_bracket k) (closes_bracket s) hk
        exact hpow (isFirstPower_iff.mpr ⟨@symbol_inj op .pow hop, rfl, rfl⟩)
  | unary op u hu =>
    by_cases hop : op = .neg
    · subst hop
      rw [write, replaced_bracket, replaced_cons (by decide), hu ht, replaced_cons (by decide)]
      · rfl
      · intro s hs
        obtain ⟨c, cs, hc, hstart, -⟩ := isName_iff.mp hv
        rw [powerTail, hc] at hs
        obtain ⟨rfl, -⟩ := List.cons.inj hs
        exact absurd hstart (by decide)
    · rw [write_unary hop, replaced_append (not_mem_name (isName_symbol op)), replaced_bracket,
        hu ht, replaced_cons (by decide), collapse, write_unary hop]
      intro s hs
      obtain ⟨-, hk⟩ := first_of_match hv (t := u) ht (closes_bracket k) hs
      exact absurd (List.cons.inj hk).1 (by decide)
  | relate rel l r hl hr =>
    rw [write, replaced_bracket, hl ht.1,
      replaced_append (not_mem_joints (relation_mem_joints rel)), hr ht.2.1,
      replaced_cons (by decide)]
    · rfl
    · intro s hs
      obtain ⟨rfl, hk⟩ := first_of_match hv ht.1 (closes_joint (relation_mem_joints rel) _) hs
      obtain ⟨hrel, -⟩ := cancel_joint (q := BinaryOp.pow.symbol.toList) (y := '1' :: ')' :: s)
        (relation_mem_joints rel) (by decide) (write_head_ne_eq ht.2.1 _) (by simp) hk
      exact symbol_ne_relation .pow rel hrel.symm
  | branch c t f hc htt hf =>
    rw [write, replaced_bracket, hc ht.1, replaced_cons (by decide), htt ht.2.1,
      replaced_cons (by decide), hf ht.2.2, replaced_cons (by decide)]
    · rfl
    · intro s hs
      obtain ⟨-, hk⟩ := first_of_match hv ht.1 (closes_query _) hs
      exact absurd (List.cons.inj hk).1 (by decide)

variable {α : Type} [Scalar α] [Numeral α] [Spelled α]

/-- The compact text is the text of the collapsed spelled tree. -/
theorem compact_eq {v : String} (hv : IsIdentifier v) {t : Tree α} (ht : t.Over IsIdentifier) :
    t.compact v = String.ofList ((t.spell.collapse v).write []) := by
  have h := packed_text_eq_write ht []
  rw [List.append_nil] at h
  have hpat : ("(" ++ v ++ "^1)").toList = '(' :: powerTail v := by
    simp [powerTail]
  rw [compact, hpat]
  exact congrArg String.ofList
    ((congrArg (replaced v) h).trans (replaced_write hv (legible_spell ht) []))

theorem collapse_eq_of_compact {v : String} (hv : IsIdentifier v) {a b : Tree α}
    (ha : a.Over IsIdentifier) (hb : b.Over IsIdentifier) (h : a.compact v = b.compact v) :
    a.spell.collapse v = b.spell.collapse v := by
  rw [compact_eq hv ha, compact_eq hv hb] at h
  exact (write_inj (legible_collapse hv (legible_spell ha)) (legible_collapse hv (legible_spell hb))
    closes_nil closes_nil (String.ofList_injective h)).1

/-! ## Values -/

section Value

variable {K : Type} [Field K] [LinearOrder K] [Elementary K]

theorem valueBy_collapse {v : String} {read : String → Option K} (hone : read "1" = some 1)
    (env : String → K) (t : Tree String) :
    (t.collapse v).valueBy read env = t.valueBy read env := by
  induction t with
  | var x => rfl
  | const s => rfl
  | binary op l r hl hr =>
    rw [collapse]
    split
    · next hpow =>
      obtain ⟨rfl, rfl, rfl⟩ := isFirstPower_iff.mp hpow
      simp [valueBy, hone, BinaryOp.exact, Elementary.power_one]
    · simp only [valueBy, hl, hr]
  | unary op u hu => simp only [collapse, valueBy, hu]
  | relate rel l r hl hr => simp only [collapse, valueBy, hl, hr]
  | branch c t f hc ht hf => simp only [collapse, valueBy, hc, ht, hf]

variable {read : α → Option K}

open Classical in
/-- What a text stands for: the reading of any number that has it. -/
noncomputable def readText (read : α → Option K) (s : String) : Option K :=
  if h : ∃ a : α, Scalar.isFinite a = true ∧ Numeral.text a = s then read h.choose else none

section

variable (hread : IsReading read)

include hread

omit [LinearOrder K] [Elementary K] in
theorem readText_text {a : α} (h : Scalar.isFinite a = true) :
    readText read (Numeral.text a) = read a := by
  have hex : ∃ b : α, Scalar.isFinite b = true ∧ Numeral.text b = Numeral.text a := ⟨a, h, rfl⟩
  obtain ⟨hfin, htext⟩ := hex.choose_spec
  obtain ⟨x, hx⟩ := hread.isFinite_iff.mp h
  obtain ⟨y, hy⟩ := hread.isFinite_iff.mp hfin
  rw [readText, dif_pos hex, hx, hy, hread.eq hy hx (Spelled.eq_of_text hfin h htext)]

omit [LinearOrder K] [Elementary K] in
theorem readText_one : readText read "1" = some 1 := by
  rw [← Spelled.text_one (α := α), readText_text hread (hread.isFinite_iff.mpr ⟨1, hread.one⟩),
    hread.one]

theorem valueBy_spellOperand {env : String → K} {t : Tree α} {P : String → Prop} (ht : t.Over P)
    (h : t.spell.valueBy (readText read) env = t.valueBy read env) :
    (spellOperand t t.spell).valueBy (readText read) env = t.valueBy read env := by
  cases hneg : t.isNegativeLiteral with
  | true =>
    cases t with
    | const a =>
      obtain ⟨x, hx⟩ := hread.isFinite_iff.mp ht
      rw [spellOperand_negative hneg]
      simp [valueBy, readText_text hread (Spelled.text_neg ht hneg).2.1, hread.neg hx, hx,
        UnaryOp.exact]
    | _ => cases hneg
  | false => rw [spellOperand_other hneg, h]

theorem valueBy_spell {env : String → K} {t : Tree α} {P : String → Prop} (h : t.Over P) :
    t.spell.valueBy (readText read) env = t.valueBy read env := by
  induction t with
  | var x => rfl
  | const a => exact readText_text hread h
  | binary op l r hl hr =>
    rw [spell, valueBy, valueBy_spellOperand hread h.1 (hl h.1),
      valueBy_spellOperand hread h.2 (hr h.2)]
    rfl
  | unary op u hu => rw [spell, valueBy, hu h]; rfl
  | relate rel l r hl hr =>
    rw [spell, valueBy, valueBy_spellOperand hread h.1 (hl h.1),
      valueBy_spellOperand hread h.2 (hr h.2)]
    rfl
  | branch c t f hc ht hf => rw [spell, valueBy, hc h.1, ht h.2.1, hf h.2.2]; rfl

/-- **Equal compact texts, equal values**: both trees are defined at the
same assignments and have the same value there. -/
theorem valueBy_eq_of_compact {v : String} (hv : IsIdentifier v) {a b : Tree α}
    (ha : a.Over IsIdentifier) (hb : b.Over IsIdentifier) (h : a.compact v = b.compact v)
    (env : String → K) : a.valueBy read env = b.valueBy read env := by
  rw [← valueBy_spell hread ha, ← valueBy_spell hread hb,
    ← valueBy_collapse (v := v) (readText_one hread), collapse_eq_of_compact hv ha hb h,
    valueBy_collapse (readText_one hread)]

end

/-- The same for numbers that are computed exactly. -/
theorem exact_eq_of_compact [Exact α K] {v : String} (hv : IsIdentifier v) {a b : Tree α}
    (ha : a.Over IsIdentifier) (hb : b.Over IsIdentifier) (h : a.compact v = b.compact v)
    (env : String → K) : a.exact env = b.exact env :=
  valueBy_eq_of_compact isReading_reading hv ha hb h env

end Value

end Tree

end Fluxion
