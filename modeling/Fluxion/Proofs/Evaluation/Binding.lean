/-
Array evaluation against evaluation place by place. Bindings of variables
to numbers and to arrays of one length are read into an environment of
columns (`Reads`), and the same bindings at one place into an environment of
the values there (`Scalars`). So the array has a value exactly when every place
has one, and its cells are these values (`measure_column`).
-/
import Fluxion.Binding
import Fluxion.Double.Arithmetic
import Fluxion.Proofs.Evaluation.Column
import Mathlib.Data.Fin.VecNotation

namespace Fluxion

variable {α β γ : Type} {n : Nat}

theorem Environment.get?_map {env : Environment β} (h : β → γ) (x : String) :
    Environment.get? (env.map fun e => (e.1, h e.2)) x = (env.get? x).map h := by
  simp only [Environment.get?, List.find?_map, Option.map_map]
  rfl

theorem Environment.exists_get? {env : Environment β} {x : String} (h : ∃ e ∈ env, e.1 = x) :
    ∃ b, (x, b) ∈ env ∧ env.get? x = some b := by
  obtain ⟨e, he, hx⟩ := h
  obtain ⟨e', he'⟩ := Option.isSome_iff_exists.mp
    (List.find?_isSome.mpr ⟨e, he, beq_iff_eq.mpr hx⟩ : (env.find? fun e => e.1 == x).isSome)
  obtain rfl : e'.1 = x := beq_iff_eq.mp (List.find?_some he' :)
  exact ⟨e'.2, List.mem_of_find?_eq_some he', by rw [Environment.get?, he']; rfl⟩

namespace Nested

/-- The entry at a place of an array; a number is the same at all places. -/
def entry (i : Nat) : Nested β → Nested β
  | .cell a => .cell a
  | .row entries => entries.getD i (.row entries)

theorem grids?_cells (os : List β) :
    grids? (os.map .cell) = some (os.map fun o => ⟨[], [o]⟩) := by
  induction os with
  | nil => rfl
  | cons o os ih =>
    rw [List.map_cons, grids?, grid?, ih]
    rfl

theorem grid?_cells (os : List β) :
    grid? (.row (os.map .cell)) = some ⟨[os.length], os⟩ := by
  rw [grid?, grids?_cells]
  cases os with
  | nil => rfl
  | cons o os => simp [List.flatMap_map]

end Nested

namespace Binding

variable [Scalar α] [Numeral α] {v : Nested (Operand α)} {g : Grid α} {f : Fin n → α}
  {bs : List (Binding α)} {cs : Environment (Grid α × (Fin n → α))}

def place (i : Nat) (b : Binding α) : Binding α := { b with value := b.value.entry i }

/-- A value that is a number, or an array of `n` numbers. -/
inductive Columnar (n : Nat) : Nested (Operand α) → Grid α → (Fin n → α) → Prop
  | number {o : Operand α} {a : α} (h : o.cell = .ok a) :
      Columnar n (.cell o) (.single a) fun _ => a
  | array {o : Fin n → Operand α} {f : Fin n → α} (h : ∀ i, (o i).cell = .ok (f i)) :
      Columnar n (.row (List.ofFn fun i => .cell (o i))) ⟨[n], List.ofFn f⟩ f

/-- Bindings of variables to numbers and arrays of `n` numbers, with at
least one array. -/
structure Columns (n : Nat) (bs : List (Binding α)) : Prop where
  variableName : ∀ b ∈ bs, ∃ x, b.key.variableName = .ok x
  columnar : ∀ b ∈ bs, ∃ g f, Columnar n b.value g f
  isRow : ∃ b ∈ bs, b.value.isRow = true

theorem Columnar.column (h : Columnar n v g f) : Grid.Column n g f := by
  cases h with
  | number => exact .constant _
  | array => exact .full f

theorem mapM_cell {o : Fin n → Operand α} (h : ∀ i, (o i).cell = .ok (f i)) :
    (List.ofFn o).mapM Operand.cell = .ok (List.ofFn f) := by
  induction n with
  | zero => rfl
  | succ n ih =>
    rw [List.ofFn_succ, List.ofFn_succ, List.mapM_cons, h 0, ih fun i => h i.succ]
    rfl

theorem grid_eq_ok {os : Grid (Operand α)} {cells : List α} (hos : v.grid? = some os)
    (hcells : os.cells.mapM Operand.cell = .ok cells) :
    grid v = .ok (if v.isRow then ⟨os.shape, cells⟩ else ⟨[1], cells⟩) := by
  rw [grid, hos, Tree.orShapes]
  simp only [bind, Except.bind]
  rw [hcells]
  rfl

theorem Columnar.grid_eq (h : Columnar n v g f) : grid v = .ok g := by
  cases h with
  | @number o a h =>
    have hcells : [o].mapM Operand.cell = .ok [a] := mapM_cell (n := 1) (o := fun _ => o) fun _ => h
    exact grid_eq_ok rfl hcells
  | @array o f h =>
    have hrow : (List.ofFn fun i => Nested.cell (o i)) = (List.ofFn o).map Nested.cell := by
      rw [List.map_ofFn]; rfl
    rw [grid_eq_ok (by rw [hrow]; exact Nested.grid?_cells _) (mapM_cell h), List.length_ofFn]
    rfl

theorem Columnar.entry_eq (h : Columnar n v g f) (i : Fin n) :
    ∃ o, v.entry i = .cell o ∧ o.cell = .ok (f i) := by
  cases h with
  | number h => exact ⟨_, rfl, h⟩
  | @array o f h => exact ⟨o i, by simp [Nested.entry], h i⟩

/-- The environment that bindings of variables to numbers are read into. -/
inductive Scalars : List (Binding α) → Environment α → Prop
  | nil : Scalars [] []
  | cons {b bs x o a env} (hx : b.key.variableName = .ok x) (hv : b.value = .cell o)
      (ho : o.cell = .ok a) (h : Scalars bs env) : Scalars (b :: bs) (env ++ [(x, a)])

namespace Scalars

variable {env : Environment α}

/-- There is such an environment exactly if every key names a variable and
every value is a number. -/
theorem exists_iff : (∃ env, Scalars bs env) ↔
    ∀ b ∈ bs, (∃ x, b.key.variableName = .ok x) ∧ ∃ o a, b.value = .cell o ∧ o.cell = .ok a := by
  constructor
  · rintro ⟨env, h⟩
    induction h with
    | nil => simp
    | cons hx hv ho _ ih => exact List.forall_mem_cons.mpr ⟨⟨⟨_, hx⟩, _, _, hv, ho⟩, ih⟩
  · intro h
    induction bs with
    | nil => exact ⟨[], .nil⟩
    | cons b bs ih =>
      obtain ⟨⟨⟨x, hx⟩, o, a, hv, ho⟩, hbs⟩ := List.forall_mem_cons.mp h
      obtain ⟨env, henv⟩ := ih hbs
      exact ⟨_, .cons hx hv ho henv⟩

theorem environment_eq (h : Scalars bs env) :
    environment bs = .ok (env.map fun e => (e.1, Grid.single e.2)) := by
  induction h with
  | nil => rfl
  | cons hx hv ho _ ih =>
    have hnumber : Columnar 1 _ _ _ := .number ho
    rw [environment, hv, hnumber.grid_eq, hx, ih, List.map_append]; rfl

theorem isRow_eq (h : Scalars bs env) : bs.any (fun b => b.value.isRow) = false := by
  induction h with
  | nil => rfl
  | cons _ hv _ _ ih => rw [List.any_cons, ih, hv]; rfl

end Scalars

/-- The environment that bindings are read into, with the values of each
column. -/
inductive Reads (n : Nat) :
    List (Binding α) → Environment (Grid α × (Fin n → α)) → Prop
  | nil : Reads n [] []
  | cons {b bs x g f cs} (hx : b.key.variableName = .ok x) (hv : Columnar n b.value g f)
      (h : Reads n bs cs) : Reads n (b :: bs) (cs ++ [(x, g, f)])

theorem exists_reads (hname : ∀ b ∈ bs, ∃ x, b.key.variableName = .ok x)
    (hcol : ∀ b ∈ bs, ∃ g f, Columnar n b.value g f) : ∃ cs, Reads n bs cs := by
  induction bs with
  | nil => exact ⟨[], .nil⟩
  | cons b bs ih =>
    rw [List.forall_mem_cons] at hname hcol
    obtain ⟨x, hx⟩ := hname.1
    obtain ⟨g, f, hv⟩ := hcol.1
    obtain ⟨cs, hcs⟩ := ih hname.2 hcol.2
    exact ⟨_, .cons hx hv hcs⟩

namespace Reads

theorem environment_eq (h : Reads n bs cs) :
    environment bs = .ok (cs.map fun e => (e.1, e.2.1)) := by
  induction h with
  | nil => rfl
  | cons hx hv _ ih => rw [environment, hv.grid_eq, hx, ih, List.map_append]; rfl

theorem column (h : Reads n bs cs) : ∀ e ∈ cs, Grid.Column n e.2.1 e.2.2 := by
  induction h with
  | nil => simp
  | cons hx hv _ ih =>
    rw [List.forall_mem_append]
    exact ⟨ih, by simpa using hv.column⟩

theorem exists_mem (h : Reads n bs cs) {b : Binding α} (hb : b ∈ bs) {x : String}
    (hx : b.key.variableName = .ok x) : ∃ e ∈ cs, e.1 = x := by
  induction h with
  | nil => cases hb
  | @cons c bs y g f cs hy _ _ ih =>
    rcases List.mem_cons.mp hb with rfl | hb
    · rw [hy] at hx
      cases hx
      exact ⟨(x, g, f), by simp, rfl⟩
    · obtain ⟨e, he, hex⟩ := ih hb
      exact ⟨e, List.mem_append_left _ he, hex⟩

theorem scalars_place (h : Reads n bs cs) (i : Fin n) :
    Scalars (bs.map (place i)) (cs.map fun e => (e.1, e.2.2 i)) := by
  induction h with
  | nil => exact .nil
  | cons hx hv _ ih =>
    obtain ⟨o, hentry, ho⟩ := hv.entry_eq i
    rw [List.map_cons, List.map_append]
    exact .cons hx hentry ho ih

theorem environment_place (h : Reads n bs cs) (i : Fin n) :
    environment (bs.map (place i)) = .ok (cs.map fun e => (e.1, Grid.single (e.2.2 i))) := by
  rw [(h.scalars_place i).environment_eq, List.map_map]; rfl

theorem isRow_place (h : Reads n bs cs) (i : Fin n) :
    (bs.map (place i)).any (fun b => b.value.isRow) = false :=
  (h.scalars_place i).isRow_eq

/-- A tree whose variables are among the names is bound to columns. -/
theorem columnBound {t : Tree α} (h : Reads n bs cs)
    (ht : ∀ x ∈ t.names, ∃ b ∈ bs, b.key.variableName = .ok x) :
    t.ColumnBound (cs.map fun e => (e.1, e.2.1)) fun i => cs.map fun e => (e.1, e.2.2 i) := by
  intro x hx
  obtain ⟨b, hb, hbx⟩ := ht x hx
  obtain ⟨p, hp, hget⟩ := Environment.exists_get? (h.exists_mem hb hbx)
  refine ⟨p.1, p.2, ?_, h.column _ hp, fun i => ?_⟩
  · rw [Environment.get?_map (fun q : Grid α × (Fin n → α) => q.1), hget]; rfl
  · rw [Environment.get?_map (fun q : Grid α × (Fin n → α) => q.2 i), hget]; rfl

end Reads

theorem insert_map_place (i : Nat) (bs : List (Binding α)) (b : Binding α) :
    insert (bs.map (place i)) (place i b) = (insert bs b).map (place i) := by
  have hkey (c : Binding α) : (place i c).key = c.key := rfl
  simp only [insert, List.any_map, Function.comp_def, hkey]
  split
  · simp only [List.map_map]
    refine List.map_congr_left fun c _ => ?_
    simp only [Function.comp_apply, hkey]
    split <;> rfl
  · simp

theorem foldl_insert_place (i : Nat) (bs acc : List (Binding α)) :
    (bs.map (place i)).foldl insert (acc.map (place i)) = (bs.foldl insert acc).map (place i) := by
  induction bs generalizing acc with
  | nil => rfl
  | cons b bs ih => rw [List.map_cons, List.foldl_cons, List.foldl_cons, insert_map_place, ih]

/-- Places can be taken before or after bindings with the same key are
merged. -/
theorem merged_map_place (i : Nat) (bs : List (Binding α)) :
    merged (bs.map (place i)) = (merged bs).map (place i) :=
  foldl_insert_place i bs []

end Binding

namespace Tree

variable [Scalar α] [Numeral α] {bs : List (Binding α)} {t : Tree α}

/-- **Array evaluation is evaluation place by place.** For bindings of all
variables to numbers and arrays of one length, at least one of them an
array, there is a value exactly when there is one at every place; it is a
column, and repeated to fill all places its cells are the values there. -/
theorem measure_column (hn : 0 < n) (hbs : Binding.Columns n (Binding.merged bs))
    (ht : ∀ x ∈ t.names, ∃ b ∈ Binding.merged bs, b.key.variableName = .ok x) :
    ((∃ r, t.measure bs = .ok r) ↔ ∀ i : Fin n, ∃ r, t.measure (bs.map (Binding.place i)) = .ok r) ∧
      ∀ r, t.measure bs = .ok r → ∃ g f, r = .array g ∧ Grid.Column n g f ∧
        g.broadcastTo [n] = ⟨[n], List.ofFn f⟩ ∧
        ∀ i : Fin n, t.measure (bs.map (Binding.place i)) = .ok (.number (f i)) := by
  obtain ⟨cs, hcs⟩ := Binding.exists_reads hbs.variableName hbs.columnar
  have harray : t.measure bs = (t.evaluateGrid (cs.map fun e => (e.1, e.2.1))).map .array := by
    rw [measure]
    simp only [hcs.environment_eq, bind, Except.bind]
    rw [if_pos (List.any_eq_true.mpr hbs.isRow)]
    cases t.evaluateGrid (cs.map fun e => (e.1, e.2.1)) <;> rfl
  have hplace (i : Fin n) : t.measure (bs.map (Binding.place i)) =
      (t.evaluate (cs.map fun e => (e.1, e.2.2 i))).map .number := by
    have hscalars : (cs.map fun e => (e.1, Grid.single (e.2.2 i))).filterMap
        (fun e => e.2.cells.head?.map fun a => (e.1, a)) = cs.map fun e => (e.1, e.2.2 i) := by
      simp [List.filterMap_map, Function.comp_def, Grid.single]
    rw [measure, Binding.merged_map_place]
    simp only [hcs.environment_place i, hcs.isRow_place i, bind, Except.bind, hscalars]
    cases t.evaluate (cs.map fun e => (e.1, e.2.2 i)) <;> rfl
  simp only [harray, hplace]
  rcases evaluateGrid_column hn (hcs.columnBound ht) with ⟨g, f, hg, hcol, hf⟩ | ⟨hg, i, hi⟩
  · simp only [hg, hf, Except.map]
    refine ⟨⟨fun _ _ => ⟨_, rfl⟩, fun _ => ⟨_, rfl⟩⟩, fun r hr => ?_⟩
    cases hr
    exact ⟨g, f, rfl, hcol, hcol.broadcastTo, fun _ => rfl⟩
  · simp only [hg, Except.map]
    refine ⟨⟨fun h => ?_, fun h => ?_⟩, fun _ h => by cases h⟩
    · obtain ⟨r, hr⟩ := h
      cases hr
    · obtain ⟨r, hr⟩ := h i
      rw [hi] at hr
      cases hr

/-- `x > 0 ? y / x : 0`. -/
def guardedQuotient : Tree Float :=
  .branch (.relate .gt (.var "x") (.const 0)) (.binary .div (.var "y") (.var "x")) (.const 0)

/-- `x` is zero at the first place and two at the second, `y` is four. -/
def zeroAndTwo : List (Binding Float) :=
  [⟨.text "x", .row [.cell (.real 0), .cell (.real 2)]⟩, ⟨.text "y", .cell (.real 4)⟩]

theorem columns_zeroAndTwo : Binding.Columns 2 (Binding.merged zeroAndTwo) := by
  have hmerged : Binding.merged zeroAndTwo = zeroAndTwo := rfl
  rw [hmerged]
  refine ⟨?_, ?_, ⟨_, List.mem_cons_self, rfl⟩⟩
  · simp [zeroAndTwo, Operand.variableName]
  · have hcell : ∀ i, ((![.real 0, .real 2] : Fin 2 → Operand Float) i).cell =
        .ok ((![0, 2] : Fin 2 → Float) i) := Fin.forall_fin_two.mpr ⟨rfl, rfl⟩
    have harray : Binding.Columnar 2 (.row [.cell (.real 0), .cell (.real 2)]) ⟨[2], [0, 2]⟩
        (![0, 2] : Fin 2 → Float) := Binding.Columnar.array hcell
    have hnumber : Binding.Columnar 2 (.cell (.real 4)) (.single 4) fun _ => (4 : Float) :=
      .number rfl
    exact List.forall_mem_cons.mpr ⟨⟨_, _, harray⟩, List.forall_mem_singleton.mpr ⟨_, _, hnumber⟩⟩

/-- At the first place the quotient is infinite, but not selected: there is
a value at both places, and so an array of them. -/
theorem measure_column_guardedQuotient :
    Binding.Columns 2 (Binding.merged zeroAndTwo) ∧
      guardedQuotient.measure zeroAndTwo = .ok (.array ⟨[2], [0, 2]⟩) ∧
      ∃ f : Fin 2 → Float, [0, 2] = List.ofFn f ∧ ∀ i : Fin 2,
        guardedQuotient.measure (zeroAndTwo.map (Binding.place i)) = .ok (.number (f i)) := by
  have hmeasure : guardedQuotient.measure zeroAndTwo = .ok (.array ⟨[2], [0, 2]⟩) := rfl
  have hnames : ∀ x ∈ guardedQuotient.names,
      ∃ b ∈ Binding.merged zeroAndTwo, b.key.variableName = .ok x := by
    intro x hx
    obtain rfl | rfl : x = "x" ∨ x = "y" := by
      simp [guardedQuotient, names] at hx
      tauto
    · exact ⟨_, List.mem_cons_self, rfl⟩
    · exact ⟨_, List.mem_cons_of_mem _ List.mem_cons_self, rfl⟩
  obtain ⟨g, f, hr, -, hg, hf⟩ :=
    (measure_column (by decide) columns_zeroAndTwo hnames).2 _ hmeasure
  cases hr
  exact ⟨columns_zeroAndTwo, hmeasure, f, congrArg Grid.cells hg, hf⟩

end Tree

end Fluxion
