/-
Writing a form as a tree keeps its value. The writer takes signs and
denominators apart by steps of algebra that are not its own: a term is
negated, a product split into numerator and denominator, a power rebuilt
with the opposite exponent. Wherever these steps keep the values of the
forms that the writer comes to, the tree has the value of the form
(`exact_toTreeBy`). Nothing is asked of the tests that choose between the
steps: a term that is taken for a negative one by mistake is negated and
subtracted, and its value stays.

That the steps keep values is asked at one assignment, and there only of
the forms that are reached. A step may well lose a value elsewhere: with
`x ^ (-y)` moved below the line, the product has no value at `x = 0`,
`y = -1`, where it had one before.
-/
import Fluxion.Algebra.Conversion
import Fluxion.Proofs.Algebra.Real
import Fluxion.Proofs.Exact.Closed
import Fluxion.Proofs.Fault

namespace Fluxion.Algebra

open Exact (reading)

/-! ## What is assumed of the steps -/

variable {α : Type} [Scalar α] [Exact α ℝ]

/-- Numbers and named constants are converted without an error. -/
structure Steps.Converts (s : Steps α) (κ : Constant → ℝ) : Prop where
  number {a : Number} {x : ℝ} (ha : a.real = some x) : reading (s.number a) = some x
  constant (c : Constant) : reading (s.constant c) = some (κ c)

/-- The steps that can be taken at a form keep its value. -/
structure Steps.KeepsAt (s : Steps α) (κ : Constant → ℝ) (env : String → ℝ) (u : Form) :
    Prop where
  negate {w : Form} {x : ℝ} (hw : s.negate u = .ok w) (hx : u.valueAt κ env = some x) :
    w.valueAt κ env = some (-x)
  fraction {f : Form × Form} {x : ℝ} (hu : u.isProduct = true) (hf : s.fraction u = .ok f)
    (hx : u.valueAt κ env = some x) :
    ∃ n d, f.1.valueAt κ env = some n ∧ f.2.valueAt κ env = some d ∧ d ≠ 0 ∧ n / d = x
  power {b w : Form} {a : Number} {x : ℝ} (hu : u = .power b (.number a))
    (hw : s.power b (.number a.neg) = .ok w)
    (hx : (Form.power b (.number a.neg)).valueAt κ env = some x) : w.valueAt κ env = some x

/-- The forms that the writer comes to: parts, and what the steps make of
them. -/
inductive Steps.Reached (s : Steps α) (u : Form) : Form → Prop
  | start : Reached s u u
  | part {v w : Form} (hv : Reached s u v) (hw : w ∈ v.parts) : Reached s u w
  | negated {v w : Form} (hv : Reached s u v) (hw : s.negate v = .ok w) : Reached s u w
  | numerator {v : Form} {f : Form × Form} (hv : Reached s u v) (hp : v.isProduct = true)
      (hf : s.fraction v = .ok f) : Reached s u f.1
  | denominator {v : Form} {f : Form × Form} (hv : Reached s u v) (hp : v.isProduct = true)
      (hf : s.fraction v = .ok f) : Reached s u f.2
  | inverted {b w : Form} {a : Number} (hv : Reached s u (.power b (.number a)))
      (hw : s.power b (.number a.neg) = .ok w) : Reached s u w

namespace Form

variable {s : Steps α} {κ : Constant → ℝ} {env : String → ℝ} {fuel : Nat}
  {u v w b e l r : Form} {us vs cs : List Form} {t : Tree α} {x : ℝ}

/-- Where the form is written and has a value, the tree has that value. -/
def Faithful (s : Steps α) (κ : Constant → ℝ) (env : String → ℝ) (fuel : Nat) (u : Form) : Prop :=
  ∀ ⦃t x⦄, u.toTreeBy s fuel = .ok t → u.valueAt κ env = some x → t.exact env = some x

/-! ## Sums and products -/

/-- The operands are combined from left to right, and so are the values. -/
theorem exact_foldlM {op : ℝ → ℝ → ℝ} {f : Tree α → Form → Except (Fault α) (Tree α)}
    {t' : Tree α} {ys : List ℝ}
    (hstep : ∀ w ∈ us, ∀ ⦃t t' x y⦄, t.exact env = some x → w.valueAt κ env = some y →
      f t w = .ok t' → t'.exact env = some (op x y))
    (h : us.foldlM f t = .ok t') (hx : t.exact env = some x) (hys : HaveValues κ env us ys) :
    t'.exact env = some (ys.foldl op x) := by
  unfold HaveValues at hys
  induction hys generalizing t x with
  | nil =>
    obtain rfl := Except.ok.inj h
    exact hx
  | cons hy _ ih =>
    obtain ⟨t₁, ht₁, h⟩ := bind_eq_ok.mp h
    exact ih (fun w hw => hstep w (List.mem_cons_of_mem _ hw)) h
      (hstep _ List.mem_cons_self hx hy ht₁)

theorem faithful_sum (hs : ∀ w ∈ us, s.KeepsAt κ env w)
    (hparts : ∀ w ∈ us, Faithful s κ env fuel w)
    (hnegated : ∀ w ∈ us, ∀ w', s.negate w = .ok w' → Faithful s κ env fuel w') :
    Faithful s κ env (fuel + 1) (.sum us) := by
  intro t x h hx
  obtain ⟨xs, hxs, rfl⟩ := valueAt_sum_eq_some.mp hx
  cases us with
  | nil =>
    cases hxs
    obtain ⟨-, rfl⟩ := Tree.literal_eq_ok.mp h
    exact Exact.reading_zero
  | cons v us =>
    obtain _ | ⟨hv, hus⟩ := hxs
    obtain ⟨first, hfirst, h⟩ := bind_eq_ok.mp h
    rw [List.sum_eq_foldl, List.foldl_cons, zero_add]
    refine exact_foldlM (fun w hw t t' y z ht hz hstep => ?_) h
      (hparts v List.mem_cons_self hfirst hv) hus
    have hmem : w ∈ v :: us := List.mem_cons_of_mem v hw
    obtain ⟨subtracted, -, hstep⟩ := bind_eq_ok.mp hstep
    cases subtracted with
    | true =>
      obtain ⟨w', hw', hstep⟩ := bind_eq_ok.mp hstep
      obtain ⟨r, hr, hstep⟩ := bind_eq_ok.mp hstep
      obtain rfl := Except.ok.inj hstep
      have hneg : r.exact env = some (-z) :=
        hnegated w hmem w' hw' hr ((hs w hmem).negate hw' hz)
      exact Tree.exact_sub_eq_some.mpr ⟨y, -z, ht, hneg, sub_neg_eq_add y z⟩
    | false =>
      obtain ⟨r, hr, hstep⟩ := bind_eq_ok.mp hstep
      obtain rfl := Except.ok.inj hstep
      exact Tree.exact_add_eq_some.mpr ⟨y, z, ht, hparts w hmem hr hz, rfl⟩

theorem faithful_product (hs : s.KeepsAt κ env (.product us))
    (hparts : ∀ w ∈ us, Faithful s κ env fuel w)
    (hnegated : ∀ w, s.negate (.product us) = .ok w → Faithful s κ env fuel w)
    (hfraction : ∀ f, s.fraction (.product us) = .ok f →
      Faithful s κ env fuel f.1 ∧ Faithful s κ env fuel f.2) :
    Faithful s κ env (fuel + 1) (.product us) := by
  intro t x h hx
  change (if s.isNegative (.product us) then _ else _) = _ at h
  split at h
  · obtain ⟨w, hw, h⟩ := bind_eq_ok.mp h
    obtain ⟨r, hr, h⟩ := bind_eq_ok.mp h
    obtain rfl := Except.ok.inj h
    exact Tree.exact_neg_eq_some.mpr ⟨-x, hnegated w hw hr (hs.negate hw hx), neg_neg x⟩
  obtain ⟨f, hf, h⟩ := bind_eq_ok.mp h
  split at h
  · obtain ⟨n, d, hn, hd, hne, hquotient⟩ := hs.fraction rfl hf hx
    obtain ⟨tn, htn, h⟩ := bind_eq_ok.mp h
    obtain ⟨td, htd, h⟩ := bind_eq_ok.mp h
    obtain rfl := Except.ok.inj h
    exact Tree.exact_div_eq_some.mpr
      ⟨n, d, (hfraction f hf).1 htn hn, (hfraction f hf).2 htd hd, hne, hquotient⟩
  -- Without a denominator the factors are written as they stand.
  obtain ⟨xs, hxs, rfl⟩ := valueAt_product_eq_some.mp hx
  cases us with
  | nil =>
    cases hxs
    obtain ⟨-, rfl⟩ := Tree.literal_eq_ok.mp h
    exact Exact.reading_one
  | cons v us =>
    obtain _ | ⟨hv, hus⟩ := hxs
    obtain ⟨first, hfirst, h⟩ := bind_eq_ok.mp h
    rw [List.prod_eq_foldl, List.foldl_cons, one_mul]
    refine exact_foldlM (fun w hw t t' y z ht hz hstep => ?_) h
      (hparts v List.mem_cons_self hfirst hv) hus
    obtain ⟨r, hr, hstep⟩ := bind_eq_ok.mp hstep
    obtain rfl := Except.ok.inj hstep
    exact Tree.exact_mul_eq_some.mpr
      ⟨y, z, ht, hparts w (List.mem_cons_of_mem v hw) hr hz, rfl⟩

/-! ## Powers -/

theorem eq_number_of_beq {a : Number} (h : (e == .number a) = true) : e = .number a := by
  cases e <;> simp_all [BEq.beq, same]

theorem faithful_power (hs : s.KeepsAt κ env (.power b e)) (hb : Faithful s κ env fuel b)
    (he : Faithful s κ env fuel e)
    (hinverted : ∀ a w, e = .number a → s.power b (.number a.neg) = .ok w →
      Faithful s κ env fuel w) :
    Faithful s κ env (fuel + 1) (.power b e) := by
  intro t x h hx
  obtain ⟨y, z, hy, hz, hpower⟩ := valueAt_power_eq_some.mp hx
  have plain (h : (do return Tree.binary .pow (← toTreeBy s fuel b) (← toTreeBy s fuel e)) =
      Except.ok t) : t.exact env = some x := by
    obtain ⟨tb, htb, h⟩ := bind_eq_ok.mp h
    obtain ⟨te, hte, h⟩ := bind_eq_ok.mp h
    obtain rfl := Except.ok.inj h
    exact Tree.exact_pow_eq_some.mpr ⟨y, z, hb htb hy, he hte hz, hpower⟩
  change (if e == half then _ else _) = _ at h
  split at h
  · next hhalf =>
    obtain rfl := eq_number_of_beq hhalf
    obtain rfl := Option.some.inj (hz.symm.trans valueAt_half)
    obtain ⟨tb, htb, h⟩ := bind_eq_ok.mp h
    obtain rfl := Except.ok.inj h
    exact Tree.exact_unary_eq_some.mpr ⟨y, hb htb hy, sqrt_of_power_half hpower⟩
  split at h
  · next a _ =>
    split at h
    · next hnegative =>
      have hz₀ : z < 0 := (Number.isNegative_iff hz).mp hnegative
      obtain ⟨d, hd, hne, hquotient⟩ := power_eq_one_div hz₀ hpower
      obtain ⟨w, hw, h⟩ := bind_eq_ok.mp h
      obtain ⟨tw, htw, h⟩ := bind_eq_ok.mp h
      obtain rfl := Except.ok.inj h
      have hopposite : (Form.power b (.number a.neg)).valueAt κ env = some d :=
        valueAt_power_eq_some.mpr ⟨y, -z, hy, Number.real_neg hz, hd⟩
      have hbelow : tw.exact env = some d :=
        hinverted a w rfl hw htw (hs.power rfl hw hopposite)
      exact Tree.exact_div_eq_some.mpr ⟨1, d, Exact.reading_one, hbelow, hne, hquotient⟩
    · exact plain h
  · exact plain h

/-! ## Pieces -/

/-- The tree has the value of a choice between the pieces. -/
def Covers (κ : Constant → ℝ) (env : String → ℝ) (ps : List (Form × Form)) (t : Tree α) : Prop :=
  ∀ ⦃x⦄, chosenAt κ env ps = some x → t.exact env = some x

/-- One more piece in front of those that are covered. -/
theorem Covers.branch {ps : List (Form × Form)} {p : Form × Form} {tc tv : Tree α}
    (ht : Covers κ env ps t)
    (hc : ∀ ⦃y⦄, p.2.valueAt κ env = some y → tc.exact env = some y)
    (hv : ∀ ⦃y⦄, p.1.valueAt κ env = some y → tv.exact env = some y) :
    Covers κ env (p :: ps) (.branch tc tv t) := by
  intro x hx
  obtain ⟨y, hy, hx⟩ := chosenAt_cons_eq_some.mp hx
  refine Tree.exact_branch_eq_some.mpr ⟨y, hc hy, ?_⟩
  split at hx
  · next h₀ => rw [if_pos h₀]; exact ht hx
  · next h₀ => rw [if_neg h₀]; exact hv hx

/-- The loop runs from the last piece to the first; at every turn the tree
covers the pieces that are done. -/
theorem covers_foldlM {rest done : List (Form × Form)} {t' : Tree α}
    (hparts : ∀ p ∈ rest, Faithful s κ env fuel p.1 ∧ Faithful s κ env fuel p.2)
    (h : rest.foldlM (fun t p => do
      let c ← toTreeBy s fuel p.2
      return .branch c (← toTreeBy s fuel p.1) t) t = .ok t')
    (ht : Covers κ env done t) : Covers κ env (rest.reverse ++ done) t' := by
  induction rest generalizing t done with
  | nil =>
    obtain rfl := Except.ok.inj h
    exact ht
  | cons p rest ih =>
    obtain ⟨hp, hrest⟩ := List.forall_mem_cons.mp hparts
    obtain ⟨t₁, ht₁, h⟩ := bind_eq_ok.mp h
    obtain ⟨tc, htc, ht₁⟩ := bind_eq_ok.mp ht₁
    obtain ⟨tv, htv, ht₁⟩ := bind_eq_ok.mp ht₁
    obtain rfl := Except.ok.inj ht₁
    rw [List.reverse_cons, List.append_assoc]
    exact ih hrest h (ht.branch (fun _ => hp.2 htc) (fun _ => hp.1 htv))

theorem eq_true_of_beq (h : (u == .truth true) = true) : u = .truth true := by
  cases u <;> simp_all [BEq.beq, same]

theorem faithful_cases (hvs : ∀ v ∈ vs, Faithful s κ env fuel v)
    (hcs : ∀ c ∈ cs, Faithful s κ env fuel c) :
    Faithful s κ env (fuel + 1) (.cases vs cs) := by
  intro t x h hx
  simp only [toTreeBy] at h
  split at h
  · next v c rest hreverse =>
    have hpieces : vs.zip cs = rest.reverse ++ [(v, c)] := by
      rw [← List.reverse_cons, ← hreverse, List.reverse_reverse]
    have hparts (p : Form × Form) (hp : p ∈ vs.zip cs) :
        Faithful s κ env fuel p.1 ∧ Faithful s κ env fuel p.2 :=
      ⟨hvs p.1 (List.of_mem_zip hp).1, hcs p.2 (List.of_mem_zip hp).2⟩
    split at h
    · next hdefault =>
      obtain rfl := eq_true_of_beq hdefault
      obtain ⟨last, hlast, h⟩ := bind_eq_ok.mp h
      have hcovered : Covers κ env [(v, .truth true)] last := by
        intro y hy
        obtain ⟨z, hz, hy⟩ := chosenAt_cons_eq_some.mp hy
        obtain rfl : z = 1 := Option.some.inj hz.symm
        rw [if_neg one_ne_zero] at hy
        exact (hparts (v, .truth true) (by simp [hpieces])).1 hlast hy
      rw [valueAt_cases, hpieces] at hx
      exact covers_foldlM (fun p hp => hparts p (by simp [hpieces, hp])) h hcovered hx
    · cases h
  · cases h

/-! ## Forms -/

/-- By induction on the fuel: each case needs the writer one level down to
be right about forms that are reached from this one. -/
theorem faithful_of_reached {root : Form} (hconverts : s.Converts κ)
    (hkeeps : ∀ w, s.Reached root w → s.KeepsAt κ env w) (fuel : Nat) (hu : s.Reached root u) :
    Faithful s κ env fuel u := by
  induction fuel generalizing u with
  | zero => intro t x h; cases h
  | succ fuel ih =>
    have hpart (w : Form) (hw : w ∈ u.parts) : Faithful s κ env fuel w := ih (hu.part hw)
    cases u with
    | symbol y =>
      intro t x h hx
      change Tree.named y = _ at h
      unfold Tree.named at h
      split at h <;> cases h
      exact hx
    | number a =>
      intro t x h hx
      change (if a.isFinite then _ else _) = _ at h
      split at h
      · obtain ⟨-, rfl⟩ := Tree.literal_eq_ok.mp h
        exact hconverts.number hx
      · cases h
    | constant c =>
      intro t x h hx
      obtain ⟨-, rfl⟩ := Tree.literal_eq_ok.mp h
      obtain rfl := Option.some.inj hx
      exact hconverts.constant c
    | sum us =>
      exact faithful_sum (fun w hw => hkeeps w (hu.part hw)) hpart
        fun w hw w' hw' => ih ((hu.part hw).negated hw')
    | product us =>
      exact faithful_product (hkeeps _ hu) hpart (fun w hw => ih (hu.negated hw))
        fun f hf => ⟨ih (hu.numerator rfl hf), ih (hu.denominator rfl hf)⟩
    | power b e =>
      refine faithful_power (hkeeps _ hu) (hpart b (by simp [parts])) (hpart e (by simp [parts])) ?_
      rintro a w rfl hw
      exact ih (hu.inverted hw)
    | call op v =>
      intro t x h hx
      obtain ⟨y, hy, hx⟩ := valueAt_call_eq_some.mp hx
      obtain ⟨tv, htv, h⟩ := bind_eq_ok.mp h
      obtain rfl := Except.ok.inj h
      exact Tree.exact_unary_eq_some.mpr ⟨y, hpart v (by simp [parts]) htv hy, hx⟩
    | cases vs cs =>
      exact faithful_cases (fun v hv => hpart v (List.mem_append_left cs hv))
        fun c hc => hpart c (List.mem_append_right vs hc)
    | relate rel l r =>
      intro t x h hx
      obtain ⟨y, z, hy, hz, hx⟩ := valueAt_relate_eq_some.mp hx
      obtain ⟨tl, htl, h⟩ := bind_eq_ok.mp h
      obtain ⟨tr, htr, h⟩ := bind_eq_ok.mp h
      obtain rfl := Except.ok.inj h
      exact Tree.exact_relate_eq_some.mpr
        ⟨y, z, hpart l (by simp [parts]) htl hy, hpart r (by simp [parts]) htr hz, hx⟩
    | unsigned | imaginary | truth | foreign => intro t x h; cases h

/-- **Writing a form keeps its value.** Where every step keeps the values of
the forms that are reached, the tree is defined wherever the form has a
value, and has that value; a choice gives the value of the first piece
whose condition holds. -/
theorem exact_toTreeBy (hconverts : s.Converts κ)
    (hkeeps : ∀ w, s.Reached u w → s.KeepsAt κ env w) (h : u.toTreeBy s fuel = .ok t) :
    (∀ x, u.valueAt κ env = some x → t.exact env = some x) ∧
      ∀ vs cs before v c after y x, u = .cases vs cs → vs.zip cs = before ++ (v, c) :: after →
        (∀ p ∈ before, p.2.valueAt κ env = some 0) → c.valueAt κ env = some y → y ≠ 0 →
        v.valueAt κ env = some x → t.exact env = some x := by
  have hexact (x : ℝ) (hx : u.valueAt κ env = some x) : t.exact env = some x :=
    faithful_of_reached hconverts hkeeps fuel .start h hx
  refine ⟨hexact, ?_⟩
  rintro vs cs before v c after y x rfl hpieces hbefore hc hy hv
  refine hexact x ?_
  rw [valueAt_cases, hpieces, chosenAt_of_first hbefore hc hy, hv]

/-! ## Steps over closed numbers -/

/-- A power with a new exponent, one being left out. -/
def rebuilt (b e : Form) : Form := if e == one then b else .power b e

theorem valueAt_rebuilt (h : (Form.power b e).valueAt κ env = some x) :
    (rebuilt b e).valueAt κ env = some x := by
  unfold rebuilt
  split
  · next hone =>
    obtain rfl := eq_number_of_beq hone
    obtain ⟨y, z, hy, hz, hpower⟩ := valueAt_power_eq_some.mp h
    obtain rfl := Option.some.inj (hz.symm.trans valueAt_one)
    rwa [← hpower, Elementary.power_one]
  · exact h

/-- What a factor puts below the line: a power with a negative number in the
exponent goes there, anything else stays above. -/
def below? : Form → Option Form
  | .power b (.number a) => if a.isNegative then some (rebuilt b (.number a.neg)) else none
  | _ => none

theorem valueAt_of_below? (h : below? u = some v) (hx : u.valueAt κ env = some x) :
    ∃ d, v.valueAt κ env = some d ∧ d ≠ 0 ∧ 1 / d = x := by
  unfold below? at h
  split at h
  · next b a =>
    split at h
    · next hnegative =>
      obtain rfl := Option.some.inj h
      obtain ⟨y, z, hy, hz, hpower⟩ := valueAt_power_eq_some.mp hx
      have hz₀ : z < 0 := (Number.isNegative_iff hz).mp hnegative
      obtain ⟨d, hd, hne, hquotient⟩ := power_eq_one_div hz₀ hpower
      refine ⟨d, valueAt_rebuilt ?_, hne, hquotient⟩
      exact valueAt_power_eq_some.mpr ⟨y, -z, hy, Number.real_neg hz, hd⟩
    · cases h
  · cases h

/-- The factors above the line over those below it. -/
theorem haveValues_parted {xs : List ℝ} (h : HaveValues κ env us xs) :
    ∃ ns ds, HaveValues κ env (us.filter fun u => (below? u).isNone) ns ∧
      HaveValues κ env (us.filterMap below?) ds ∧ ds.prod ≠ 0 ∧ ns.prod / ds.prod = xs.prod := by
  unfold HaveValues at h
  induction h with
  | nil => exact ⟨[], [], .nil, .nil, by simp, by simp⟩
  | @cons u x us xs hx _ ih =>
    obtain ⟨ns, ds, hns, hds, hne, hquotient⟩ := ih
    cases hbelow : below? u with
    | none =>
      refine ⟨x :: ns, ds, ?_, ?_, hne, ?_⟩
      · rw [List.filter_cons_of_pos (by rw [hbelow]; rfl)]
        exact .cons hx hns
      · rwa [List.filterMap_cons_none hbelow]
      · rw [List.prod_cons, List.prod_cons, mul_div_assoc, hquotient]
    | some v =>
      obtain ⟨d, hd, hd₀, rfl⟩ := valueAt_of_below? hbelow hx
      refine ⟨ns, d :: ds, ?_, ?_, List.prod_cons.trans_ne (mul_ne_zero hd₀ hne), ?_⟩
      · rwa [List.filter_cons_of_neg (by rw [hbelow]; simp)]
      · rw [List.filterMap_cons_some hbelow]
        exact .cons hd hds
      · rw [List.prod_cons, List.prod_cons, ← hquotient, div_mul_div_comm, one_mul]

end Form

/-- Steps that take forms apart and combine nothing; there are no named
constants. -/
def Steps.plain : Steps Closed where
  number
    | .exact r => Closed.ofRat r
    | .approximate x => Closed.ofRat x.toRat
    | .infinite _ | .undefined => .integer 0
  constant _ := .integer 0
  negate u := .ok u.negated
  isSubtracted u := .ok u.coefficient.1.isNegative
  isNegative u := u.coefficient.1.isNegative
  fraction u :=
    .ok (Form.rawProduct (u.factors.filter fun v => (Form.below? v).isNone),
      Form.rawProduct (u.factors.filterMap Form.below?))
  power b e := .ok (Form.rebuilt b e)

theorem Steps.converts_plain : Steps.plain.Converts 0 where
  number {a x} ha := by
    cases a with
    | exact r => exact (Closed.reading_ofRat r).trans ha
    | approximate y => exact (Closed.reading_ofRat y.toRat).trans ha
    | infinite | undefined => cases ha
  constant c := by simp [Steps.plain]

theorem Steps.keepsAt_plain (κ : Constant → ℝ) (env : String → ℝ) (u : Form) :
    Steps.plain.KeepsAt κ env u where
  negate hw hx := by
    obtain rfl := Except.ok.inj hw
    exact Form.valueAt_negated hx
  fraction {f x} hu hf hx := by
    obtain rfl := Except.ok.inj hf
    cases u with
    | product us =>
      obtain ⟨xs, hxs, rfl⟩ := Form.valueAt_product_eq_some.mp hx
      obtain ⟨ns, ds, hns, hds, hne, hquotient⟩ := Form.haveValues_parted hxs
      exact ⟨_, _, Form.valueAt_rawProduct hns, Form.valueAt_rawProduct hds, hne, hquotient⟩
    | _ => cases hu
  power _ hw hx := by
    obtain rfl := Except.ok.inj hw
    exact Form.valueAt_rebuilt hx

namespace Form

/-- A difference with a denominator where `x < 2`, and a root elsewhere. -/
def twoPieces : Form :=
  .cases
    [.sum [.symbol "y", .product [int (-2), .symbol "x", .power (.symbol "z") minusOne]],
      .power (.symbol "x") half]
    [.relate .lt (.symbol "x") two, .truth true]

def twoBranches : Tree Closed :=
  .branch (.relate .lt (.var "x") (.const (.integer 2)))
    (.binary .sub (.var "y")
      (.binary .div (.binary .mul (.const (.integer 2)) (.var "x")) (.var "z")))
    (.unary .sqrt (.var "x"))

def given (x y z : ℝ) (name : String) : ℝ := if name = "x" then x else if name = "y" then y else z

/-- Where the second piece is taken, the first has no value. -/
theorem exact_twoPieces :
    twoPieces.toTreeBy Steps.plain 6 = .ok twoBranches ∧
      twoBranches.exact (given 1 5 4) = some (9 / 2) ∧
      twoBranches.exact (given 4 5 0) = some 2 := by
  have hwritten : twoPieces.toTreeBy Steps.plain 6 = .ok twoBranches := rfl
  have hkept (env : String → ℝ) := exact_toTreeBy Steps.converts_plain
    (fun w _ => Steps.keepsAt_plain 0 env w) hwritten
  have htest (x y z : ℝ) : (Form.relate .lt (.symbol "x") two).valueAt 0 (given x y z) =
      some (if x < 2 then 1 else 0) :=
    valueAt_relate_eq_some.mpr ⟨x, 2, rfl, valueAt_int 2, by simp [Relation.exact]⟩
  refine ⟨hwritten, (hkept _).1 _ ?_, ?_⟩
  · have hdivisor : (Form.power (.symbol "z") minusOne).valueAt 0 (given 1 5 4) = some (1 / 4) :=
      valueAt_power_eq_some.mpr ⟨4, -1, rfl, valueAt_minusOne, by
        simp [Elementary.Inverse.power_neg_one]⟩
    have hproduct : (Form.product [int (-2), .symbol "x", .power (.symbol "z") minusOne]).valueAt 0
        (given 1 5 4) = some (-1 / 2) :=
      valueAt_product_eq_some.mpr
        ⟨_, .cons (valueAt_int (-2)) (.cons rfl (.cons hdivisor .nil)), by norm_num [given]⟩
    have hy : (Form.symbol "y").valueAt 0 (given 1 5 4) = some 5 := rfl
    have hholds : (Form.relate .lt (.symbol "x") two).valueAt 0 (given 1 5 4) = some 1 := by
      simpa using htest 1 5 4
    rw [twoPieces, valueAt_cases]
    refine (chosenAt_of_first (List.forall_mem_nil _) hholds one_ne_zero).trans ?_
    exact valueAt_sum_eq_some.mpr ⟨_, .cons hy (.cons hproduct .nil), by norm_num⟩
  · refine (hkept _).2 _ _ [_] _ _ [] 1 2 rfl rfl ?_ rfl one_ne_zero ?_
    · rintro p hp
      obtain rfl := List.mem_singleton.mp hp
      exact (htest 4 5 0).trans (by norm_num)
    · refine valueAt_power_eq_some.mpr ⟨4, 1 / 2, rfl, valueAt_half, power_eq_some.mpr ⟨?_, ?_⟩⟩
      · exact .inl (by norm_num)
      · rw [← Real.sqrt_eq_rpow, Real.sqrt_eq_iff_mul_self_eq_of_pos two_pos]
        norm_num

end Form

end Fluxion.Algebra
