/-
The text of a tree without blanks determines the tree. The literals here
are texts themselves, so nothing is said of what they stand for.

A text is written in front of a rest (`write`). Two trees whose texts,
each with a rest that cannot continue it, read the same are the same and
so are the rests (`write_inj`): every node but a leaf is bracketed, and
the first characters tell the kinds of node apart. Only a conditional can
begin like a negation, when its test is a negative literal; the character
after the literal then tells which of the two it is.
-/
import Fluxion.Tree
import Fluxion.Proofs.Text.Lexeme

namespace Fluxion.Tree

open Text

/-- The characters of a tree in front of `k`. -/
def write : Tree String → List Char → List Char
  | .var x, k => x.toList ++ k
  | .const s, k => s.toList ++ k
  | .binary op l r, k => '(' :: l.write (op.symbol.toList ++ r.write (')' :: k))
  | .unary .neg u, k => '(' :: '-' :: u.write (')' :: k)
  | .unary op u, k => op.symbol.toList ++ '(' :: u.write (')' :: k)
  | .relate rel l r, k => '(' :: l.write (rel.symbol.toList ++ r.write (')' :: k))
  | .branch c t f, k => '(' :: c.write ('?' :: t.write (':' :: f.write (')' :: k)))

/-- A literal with a minus sign. -/
def IsNegative : Tree String → Prop
  | .const s => ∃ u, s.toList = '-' :: u
  | _ => False

/-- Variables are identifiers and literals are numbers; a negative literal
is no first operand. -/
def Legible : Tree String → Prop
  | .var x => IsIdentifier x
  | .const s => IsNumber s.toList
  | .binary _ l r | .relate _ l r => l.Legible ∧ r.Legible ∧ ¬ l.IsNegative
  | .unary _ u => u.Legible
  | .branch c t f => c.Legible ∧ t.Legible ∧ f.Legible

/-! ## First characters -/

/-- What the text of a tree can begin with. -/
def Begins (c : Char) : Tree String → Prop
  | .var _ => isNameStart c = true
  | .const s => c.isDigit = true ∨ (c = '-' ∧ (Tree.const s).IsNegative)
  | .unary op _ => if op = .neg then c = '(' else isNameStart c = true
  | _ => c = '('

theorem write_unary {op : UnaryOp} (h : op ≠ .neg) (u : Tree String) (k : List Char) :
    (Tree.unary op u).write k = op.symbol.toList ++ '(' :: u.write (')' :: k) := by
  cases op <;> first | exact absurd rfl h | rfl

theorem isName_symbol (op : UnaryOp) : isName op.symbol.toList = true := by
  cases op <;> decide

theorem write_begins {t : Tree String} (h : t.Legible) (k : List Char) :
    ∃ c cs, t.write k = c :: cs ∧ t.Begins c := by
  cases t with
  | var x =>
    obtain ⟨c, cs, hx, hc, -⟩ := isName_iff.mp h
    exact ⟨c, cs ++ k, by simp [write, hx], hc⟩
  | const s =>
    rcases h with h | ⟨u, hu, h⟩
    · obtain ⟨c, cs, hs, hc⟩ := h.head
      exact ⟨c, cs ++ k, by simp [write, hs], .inl hc⟩
    · exact ⟨'-', u ++ k, by simp [write, hu], .inr ⟨rfl, u, hu⟩⟩
  | unary op u =>
    by_cases hop : op = .neg
    · subst hop; exact ⟨_, _, rfl, rfl⟩
    · obtain ⟨c, cs, hc, hstart, -⟩ := isName_iff.mp (isName_symbol op)
      refine ⟨c, cs ++ '(' :: u.write (')' :: k), ?_, ?_⟩
      · rw [write_unary hop, hc, List.cons_append]
      · rwa [Begins, if_neg hop]
  | binary op l r => exact ⟨_, _, rfl, rfl⟩
  | relate rel l r => exact ⟨_, _, rfl, rfl⟩
  | branch c t f => exact ⟨_, _, rfl, rfl⟩

theorem begins_both {a b : Tree String} (ha : a.Legible) (hb : b.Legible) {r s : List Char}
    (h : a.write r = b.write s) : ∃ c, a.Begins c ∧ b.Begins c := by
  obtain ⟨c, cs, hc, hac⟩ := write_begins ha r
  obtain ⟨d, ds, hd, hbd⟩ := write_begins hb s
  rw [hc, hd, List.cons.injEq] at h
  exact ⟨c, hac, h.1 ▸ hbd⟩

theorem not_isNameStart_iff {c : Char} (h : isNameStart c = true) :
    c ≠ '(' ∧ c ≠ '-' ∧ c.isDigit = false := by
  refine ⟨?_, ?_, not_isDigit_of_isNameStart h⟩ <;> rintro rfl <;> cases h

/-! ## Operators between operands -/

/-- The symbols that stand between two operands. -/
def joints : List (List Char) :=
  BinaryOp.all.map (·.symbol.toList) ++ Relation.all.map (·.symbol.toList)

theorem symbol_mem_joints (op : BinaryOp) : op.symbol.toList ∈ joints := by
  cases op <;> decide

theorem relation_mem_joints (rel : Relation) : rel.symbol.toList ∈ joints := by
  cases rel <;> decide

theorem symbol_inj {op op' : BinaryOp} (h : op.symbol.toList = op'.symbol.toList) : op = op' := by
  cases op <;> cases op' <;> first | rfl | exact absurd h (by decide)

theorem relation_inj {rel rel' : Relation} (h : rel.symbol.toList = rel'.symbol.toList) :
    rel = rel' := by
  cases rel <;> cases rel' <;> first | rfl | exact absurd h (by decide)

theorem symbol_ne_relation (op : BinaryOp) (rel : Relation) :
    op.symbol.toList ≠ rel.symbol.toList := by
  cases op <;> cases rel <;> decide

theorem function_inj {op op' : UnaryOp} (h : op.symbol.toList = op'.symbol.toList) : op = op' := by
  cases op <;> cases op' <;> first | rfl | exact absurd h (by decide)

/-- A character that ends a word and begins neither an argument nor a
branch. -/
def isJointStart (c : Char) : Bool := !isNamePart c && c != '.' && c != '(' && c != '?'

/-- An operator ends the word before it. -/
theorem joint_begins {p : List Char} (hp : p ∈ joints) :
    ∃ c cs, p = c :: cs ∧ isJointStart c = true := by
  have all : ∀ p ∈ joints, p.head?.any isJointStart = true := by decide
  have h := all p hp
  cases p with
  | nil => cases h
  | cons c cs => exact ⟨c, cs, rfl, h⟩

/-- One operator may begin another, but only by an equals sign, which
begins no operand. -/
theorem cancel_joint {p q x y : List Char} (hp : p ∈ joints) (hq : q ∈ joints)
    (hx : x.head? ≠ some '=') (hy : y.head? ≠ some '=') (h : p ++ x = q ++ y) :
    p = q ∧ x = y := by
  have all : ∀ p ∈ joints, ∀ q ∈ joints, p.isPrefixOf q = true →
      q.drop p.length = [] ∨ q.drop p.length = ['='] := by decide
  rcases List.append_eq_append_iff.mp h with ⟨m, rfl, rfl⟩ | ⟨m, rfl, rfl⟩
  · rcases all p hp _ hq (List.isPrefixOf_iff_prefix.mpr ⟨m, rfl⟩) with hm | hm <;>
      rw [List.drop_left] at hm <;> subst hm
    · exact ⟨(List.append_nil p).symm, rfl⟩
    · exact absurd rfl hx
  · rcases all q hq _ hp (List.isPrefixOf_iff_prefix.mpr ⟨m, rfl⟩) with hm | hm <;>
      rw [List.drop_left] at hm <;> subst hm
    · exact ⟨List.append_nil q, rfl⟩
    · exact absurd rfl hy

theorem begins_ne_eq {t : Tree String} {c : Char} (h : t.Begins c) : c ≠ '=' := by
  rintro rfl
  cases t with
  | var x => exact absurd (show isNameStart '=' = true from h) (by decide)
  | const s => rcases h with h | ⟨h, -⟩ <;> exact absurd h (by decide)
  | unary op u =>
    rw [Begins] at h
    split at h <;> exact absurd h (by decide)
  | binary op l r => exact absurd (show '=' = '(' from h) (by decide)
  | relate rel l r => exact absurd (show '=' = '(' from h) (by decide)
  | branch c t f => exact absurd (show '=' = '(' from h) (by decide)

theorem write_head_ne_eq {t : Tree String} (h : t.Legible) (k : List Char) :
    (t.write k).head? ≠ some '=' := by
  obtain ⟨c, cs, hc, hb⟩ := write_begins h k
  rw [hc, List.head?_cons, ne_eq, Option.some.injEq]
  exact begins_ne_eq hb

/-! ## Reading back -/

/-- Neither a word nor an argument list goes on in the rest. -/
def Closes : List Char → Prop
  | [] => True
  | c :: _ => isNamePart c = false ∧ c ≠ '.' ∧ c ≠ '('

theorem Closes.stops {k : List Char} (h : Closes k) : Stops k := by
  cases k with
  | nil => trivial
  | cons c k => exact ⟨h.1, h.2.1⟩

theorem closes_joint {p : List Char} (hp : p ∈ joints) (k : List Char) : Closes (p ++ k) := by
  obtain ⟨c, cs, rfl, hc⟩ := joint_begins hp
  simp only [isJointStart, Bool.and_eq_true, Bool.not_eq_true', bne_iff_ne] at hc
  exact ⟨hc.1.1.1, hc.1.1.2, hc.1.2⟩

theorem closes_nil : Closes [] := trivial

theorem closes_bracket (k : List Char) : Closes (')' :: k) := by
  refine ⟨?_, ?_, ?_⟩ <;> decide

theorem closes_query (k : List Char) : Closes ('?' :: k) := by
  refine ⟨?_, ?_, ?_⟩ <;> decide

theorem closes_colon (k : List Char) : Closes (':' :: k) := by
  refine ⟨?_, ?_, ?_⟩ <;> decide

theorem write_inj_var {x : String} (hx : IsIdentifier x) {b : Tree String} (hb : b.Legible)
    {r s : List Char} (hr : Closes r) (hs : Closes s) (h : x.toList ++ r = b.write s) :
    b = .var x ∧ r = s := by
  obtain ⟨c, hc, hb'⟩ := begins_both (a := .var x) hx hb h
  obtain ⟨hparen, hminus, hdigit⟩ := not_isNameStart_iff hc
  cases b with
  | var y =>
    obtain ⟨hxy, rfl⟩ := cancel_name hx hb hr.stops hs.stops h
    rw [String.toList_injective hxy]
    exact ⟨rfl, rfl⟩
  | const t =>
    rcases hb' with hd | ⟨hm, -⟩
    · rw [hdigit] at hd; cases hd
    · exact absurd hm hminus
  | unary op u =>
    by_cases hop : op = .neg
    · rw [Begins, if_pos hop] at hb'; exact absurd hb' hparen
    · rw [write_unary hop] at h
      obtain ⟨-, rfl⟩ := cancel_name hx (isName_symbol op) hr.stops (by constructor <;> decide) h
      exact absurd rfl hr.2.2
  | binary op l r => exact absurd hb' hparen
  | relate rel l r => exact absurd hb' hparen
  | branch c t f => exact absurd hb' hparen

theorem write_inj_const {t : String} (ht : IsNumber t.toList) {b : Tree String} (hb : b.Legible)
    {r s : List Char} (hr : Closes r) (hs : Closes s) (h : t.toList ++ r = b.write s) :
    b = .const t ∧ r = s := by
  obtain ⟨c, hc, hb'⟩ := begins_both (a := .const t) ht hb h
  have hparen : c ≠ '(' := by
    rintro rfl
    rcases hc with hc | ⟨hc, -⟩ <;> exact absurd hc (by decide)
  have hname : isNameStart c ≠ true := by
    intro hn
    obtain ⟨-, hminus, hdigit⟩ := not_isNameStart_iff hn
    rcases hc with hc | ⟨hc, -⟩
    · rw [hdigit] at hc; cases hc
    · exact hminus hc
  cases b with
  | var x => exact absurd hb' hname
  | const t' =>
    have key : t.toList = t'.toList ∧ r = s := by
      rcases ht with ht | ⟨d, hd, ht⟩ <;> rcases hb with ht' | ⟨d', hd', ht'⟩
      · exact cancel_number ht ht' hr.stops hs.stops h
      · obtain ⟨c, cs, hc, hdigit⟩ := ht.head
        rw [write, hc, hd'] at h
        obtain ⟨rfl, -⟩ := List.cons.inj h
        cases hdigit
      · obtain ⟨c, cs, hc, hdigit⟩ := ht'.head
        rw [write, hc, hd] at h
        obtain ⟨rfl, -⟩ := List.cons.inj h
        cases hdigit
      · rw [write, hd, hd'] at h
        obtain ⟨rfl, rfl⟩ := cancel_number ht ht' hr.stops hs.stops (List.cons.inj h).2
        exact ⟨hd.trans hd'.symm, rfl⟩
    rw [String.toList_injective key.1]
    exact ⟨rfl, key.2⟩
  | unary op u =>
    rw [Begins] at hb'
    split at hb'
    · exact absurd hb' hparen
    · exact absurd hb' hname
  | binary op l r => exact absurd hb' hparen
  | relate rel l r => exact absurd hb' hparen
  | branch c t f => exact absurd hb' hparen

/-- The text of `a`, whatever follows it, is the text of no other tree. -/
def ReadsBack (a : Tree String) : Prop :=
  ∀ ⦃b : Tree String⦄ ⦃r s : List Char⦄, b.Legible → Closes r → Closes s →
    a.write r = b.write s → a = b ∧ r = s

/-- Two operands with an operator between them, in brackets. -/
theorem ReadsBack.joint {l u l' u' : Tree String} {p q r s : List Char} (hl : l.ReadsBack)
    (hu : u.ReadsBack) (hul : u.Legible) (hl' : l'.Legible) (hu' : u'.Legible) (hp : p ∈ joints)
    (hq : q ∈ joints)
    (h : l.write (p ++ u.write (')' :: r)) = l'.write (q ++ u'.write (')' :: s))) :
    l = l' ∧ p = q ∧ u = u' ∧ r = s := by
  obtain ⟨rfl, h₁⟩ := hl hl' (closes_joint hp _) (closes_joint hq _) h
  obtain ⟨rfl, h₂⟩ := cancel_joint hp hq (write_head_ne_eq hul _) (write_head_ne_eq hu' _) h₁
  obtain ⟨rfl, h₃⟩ := hu hu' (closes_bracket r) (closes_bracket s) h₂
  exact ⟨rfl, rfl, rfl, (List.cons.inj h₃).2⟩

theorem joint_ne_query {p : List Char} (hp : p ∈ joints) (x y : List Char) :
    p ++ x ≠ '?' :: y := by
  obtain ⟨c, cs, rfl, hc⟩ := joint_begins hp
  intro h
  obtain ⟨rfl, -⟩ := List.cons.inj h
  exact absurd hc (by decide)

/-- Only a negative literal begins with a minus sign. -/
theorem isNegative_of_minus {t : Tree String} (h : t.Legible) {k cs : List Char}
    (hw : t.write k = '-' :: cs) : t.IsNegative := by
  obtain ⟨c, cs', hc, hb⟩ := write_begins h k
  obtain rfl : '-' = c := (List.cons.inj (hw.symm.trans hc)).1
  cases t with
  | var x => exact absurd (show isNameStart '-' = true from hb) (by decide)
  | const s => exact hb.resolve_left (by decide) |>.2
  | unary op u =>
    rw [Begins] at hb
    split at hb <;> exact absurd hb (by decide)
  | binary op l r => exact absurd (show '-' = '(' from hb) (by decide)
  | relate rel l r => exact absurd (show '-' = '(' from hb) (by decide)
  | branch c t f => exact absurd (show '-' = '(' from hb) (by decide)

/-- A negation is told from a conditional on a negative literal by what
follows the literal. -/
theorem neg_ne_branch {u c : Tree String} (hu : u.Legible) (hc : c.Legible) (r s : List Char) :
    '-' :: u.write (')' :: r) ≠ c.write ('?' :: s) := by
  intro h
  have hneg := isNegative_of_minus hc h.symm
  cases c with
  | const t =>
    obtain ⟨d, hd⟩ := hneg
    have hd' : IsUnsigned d := by
      rcases hc with ht | ⟨d', hd', ht⟩
      · obtain ⟨c, cs, hc, hdigit⟩ := ht.head
        obtain ⟨rfl, -⟩ := List.cons.inj (hd.symm.trans hc)
        cases hdigit
      · rwa [(List.cons.inj (hd.symm.trans hd')).2]
    rw [write, hd] at h
    have key := write_inj_const (t := String.ofList d) (r := '?' :: s) (s := ')' :: r)
      (by rw [String.toList_ofList]; exact .inl hd') hu (closes_query s) (closes_bracket r)
      (by rw [String.toList_ofList]; exact (List.cons.inj h).2.symm)
    exact absurd (List.cons.inj key.2).1 (by decide)
  | _ => exact hneg

/-- No bracket is the beginning of a function. -/
theorem bracket_ne_function {op : UnaryOp} (hop : op ≠ .neg) {u : Tree String} (hu : u.Legible)
    (k s : List Char) : '(' :: k ≠ (Tree.unary op u).write s := by
  intro h
  obtain ⟨c, cs, hc, hb⟩ := write_begins (t := .unary op u) hu s
  obtain ⟨rfl, -⟩ := List.cons.inj (h.trans hc)
  rw [Begins, if_neg hop] at hb
  exact absurd hb (by decide)

/-- A bracket and a tree that is no negative literal begin no negation
either. -/
theorem bracket_ne_unary {l : Tree String} (hl : l.Legible) (hneg : ¬l.IsNegative) {op : UnaryOp}
    {u : Tree String} (hu : u.Legible) (k s : List Char) :
    '(' :: l.write k ≠ (Tree.unary op u).write s := by
  by_cases hop : op = .neg
  · subst hop
    intro h
    exact hneg (isNegative_of_minus hl (List.cons.inj h).2)
  · exact bracket_ne_function hop hu _ s

theorem ReadsBack.joint_ne_branch {l c : Tree String} {p : List Char} (hl : l.ReadsBack)
    (hc : c.Legible) (hp : p ∈ joints) (x y : List Char) :
    l.write (p ++ x) ≠ c.write ('?' :: y) := by
  intro h
  obtain ⟨-, h₁⟩ := hl hc (closes_joint hp _) (closes_query _) h
  exact joint_ne_query hp _ _ h₁

theorem ReadsBack.branch_ne_joint {c l : Tree String} {p : List Char} (hc : c.ReadsBack)
    (hl : l.Legible) (hp : p ∈ joints) (x y : List Char) :
    c.write ('?' :: y) ≠ l.write (p ++ x) := by
  intro h
  obtain ⟨-, h₁⟩ := hc hl (closes_query _) (closes_joint hp _) h
  exact joint_ne_query hp _ _ h₁.symm

/-! ## Reading back, one kind of tree at a time -/

theorem ReadsBack.binary {op : BinaryOp} {l u : Tree String} (ha : (Tree.binary op l u).Legible)
    (hl : l.ReadsBack) (hu : u.ReadsBack) : (Tree.binary op l u).ReadsBack := by
  intro b r s hb hr hs h
  cases b with
  | var y => exact (write_inj_var hb ha hs hr h.symm).imp_right Eq.symm
  | const t => exact (write_inj_const hb ha hs hr h.symm).imp_right Eq.symm
  | binary op' l' u' =>
    obtain ⟨rfl, hop, rfl, rfl⟩ := hl.joint hu ha.2.1 hb.1 hb.2.1 (symbol_mem_joints op)
      (symbol_mem_joints op') (List.cons.inj h).2
    exact ⟨by rw [symbol_inj hop], rfl⟩
  | relate rel l' u' =>
    obtain ⟨-, hop, -⟩ := hl.joint hu ha.2.1 hb.1 hb.2.1 (symbol_mem_joints op)
      (relation_mem_joints rel) (List.cons.inj h).2
    exact absurd hop (symbol_ne_relation op rel)
  | unary op' u' => exact absurd h (bracket_ne_unary ha.1 ha.2.2 (u := u') hb _ s)
  | branch c t f =>
    exact absurd (List.cons.inj h).2 (hl.joint_ne_branch hb.1 (symbol_mem_joints op) _ _)

theorem ReadsBack.relate {rel : Relation} {l u : Tree String} (ha : (Tree.relate rel l u).Legible)
    (hl : l.ReadsBack) (hu : u.ReadsBack) : (Tree.relate rel l u).ReadsBack := by
  intro b r s hb hr hs h
  cases b with
  | var y => exact (write_inj_var hb ha hs hr h.symm).imp_right Eq.symm
  | const t => exact (write_inj_const hb ha hs hr h.symm).imp_right Eq.symm
  | binary op l' u' =>
    obtain ⟨-, hop, -⟩ := hl.joint hu ha.2.1 hb.1 hb.2.1 (relation_mem_joints rel)
      (symbol_mem_joints op) (List.cons.inj h).2
    exact absurd hop.symm (symbol_ne_relation op rel)
  | relate rel' l' u' =>
    obtain ⟨rfl, hrel, rfl, rfl⟩ := hl.joint hu ha.2.1 hb.1 hb.2.1 (relation_mem_joints rel)
      (relation_mem_joints rel') (List.cons.inj h).2
    exact ⟨by rw [relation_inj hrel], rfl⟩
  | unary op' u' => exact absurd h (bracket_ne_unary ha.1 ha.2.2 (u := u') hb _ s)
  | branch c t f =>
    exact absurd (List.cons.inj h).2 (hl.joint_ne_branch hb.1 (relation_mem_joints rel) _ _)

theorem ReadsBack.neg {u : Tree String} (ha : (Tree.unary .neg u).Legible) (hu : u.ReadsBack) :
    (Tree.unary .neg u).ReadsBack := by
  intro b r s hb hr hs h
  cases b with
  | var y => exact (write_inj_var hb ha hs hr h.symm).imp_right Eq.symm
  | const t => exact (write_inj_const hb ha hs hr h.symm).imp_right Eq.symm
  | binary op l' u' =>
    exact absurd h.symm (bracket_ne_unary hb.1 hb.2.2 (u := u) ha _ r)
  | relate rel l' u' =>
    exact absurd h.symm (bracket_ne_unary hb.1 hb.2.2 (u := u) ha _ r)
  | unary op' u' =>
    by_cases hop' : op' = .neg
    · subst hop'
      obtain ⟨rfl, h₁⟩ := hu (b := u') hb (closes_bracket r) (closes_bracket s)
        (List.cons.inj (List.cons.inj h).2).2
      exact ⟨rfl, (List.cons.inj h₁).2⟩
    · exact absurd h (bracket_ne_function hop' (u := u') hb _ s)
  | branch c t f => exact absurd (List.cons.inj h).2 (neg_ne_branch (u := u) ha hb.1 r _)

theorem ReadsBack.function {op : UnaryOp} (hop : op ≠ .neg) {u : Tree String}
    (ha : (Tree.unary op u).Legible) (hu : u.ReadsBack) : (Tree.unary op u).ReadsBack := by
  intro b r s hb hr hs h
  cases b with
  | var y => exact (write_inj_var hb ha hs hr h.symm).imp_right Eq.symm
  | const t => exact (write_inj_const hb ha hs hr h.symm).imp_right Eq.symm
  | binary op' l' u' => exact absurd h.symm (bracket_ne_function hop (u := u) ha _ r)
  | relate rel l' u' => exact absurd h.symm (bracket_ne_function hop (u := u) ha _ r)
  | unary op' u' =>
    by_cases hop' : op' = .neg
    · subst hop'; exact absurd h.symm (bracket_ne_function hop (u := u) ha _ r)
    · rw [write_unary hop, write_unary hop'] at h
      obtain ⟨hsym, h₁⟩ := cancel_name (isName_symbol op) (isName_symbol op')
        (by constructor <;> decide) (by constructor <;> decide) h
      obtain ⟨rfl, h₂⟩ := hu (b := u') hb (closes_bracket r) (closes_bracket s)
        (List.cons.inj h₁).2
      exact ⟨by rw [function_inj hsym], (List.cons.inj h₂).2⟩
  | branch c t f => exact absurd h.symm (bracket_ne_function hop (u := u) ha _ r)

theorem ReadsBack.branch {c t f : Tree String} (ha : (Tree.branch c t f).Legible)
    (hc : c.ReadsBack) (ht : t.ReadsBack) (hf : f.ReadsBack) : (Tree.branch c t f).ReadsBack := by
  intro b r s hb hr hs h
  cases b with
  | var y => exact (write_inj_var hb ha hs hr h.symm).imp_right Eq.symm
  | const t => exact (write_inj_const hb ha hs hr h.symm).imp_right Eq.symm
  | binary op l' u' =>
    exact absurd (List.cons.inj h).2 (hc.branch_ne_joint hb.1 (symbol_mem_joints op) _ _)
  | relate rel l' u' =>
    exact absurd (List.cons.inj h).2 (hc.branch_ne_joint hb.1 (relation_mem_joints rel) _ _)
  | unary op' u' =>
    by_cases hop : op' = .neg
    · subst hop
      exact absurd (List.cons.inj h).2.symm (neg_ne_branch (u := u') hb ha.1 s _)
    · exact absurd h (bracket_ne_function hop (u := u') hb _ s)
  | branch c' t' f' =>
    obtain ⟨rfl, h₁⟩ := hc hb.1 (closes_query _) (closes_query _) (List.cons.inj h).2
    obtain ⟨rfl, h₂⟩ := ht hb.2.1 (closes_colon _) (closes_colon _) (List.cons.inj h₁).2
    obtain ⟨rfl, h₃⟩ := hf hb.2.2 (closes_bracket r) (closes_bracket s) (List.cons.inj h₂).2
    exact ⟨rfl, (List.cons.inj h₃).2⟩

/-- **A text is the text of one tree only**, and shows where it ends. -/
theorem write_inj {a : Tree String} (ha : a.Legible) : a.ReadsBack := by
  induction a with
  | var x => exact fun _ _ _ hb hr hs h => (write_inj_var ha hb hr hs h).imp_left Eq.symm
  | const t => exact fun _ _ _ hb hr hs h => (write_inj_const ha hb hr hs h).imp_left Eq.symm
  | binary op l u ihl ihu => exact .binary ha (ihl ha.1) (ihu ha.2.1)
  | relate rel l u ihl ihu => exact .relate ha (ihl ha.1) (ihu ha.2.1)
  | unary op u ih =>
    by_cases hop : op = .neg
    · subst hop; exact .neg ha (ih ha)
    · exact .function hop ha (ih ha)
  | branch c t f ihc iht ihf => exact .branch ha (ihc ha.1) (iht ha.2.1) (ihf ha.2.2)

end Fluxion.Tree
