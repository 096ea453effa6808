/-
Evaluation on one-dimensional arrays of a common length. Every value met on
the way is a column: either one cell, which stands for all places, or as
many cells as there are places (`Column`). Kernels keep this, also where
columns of the two kinds meet, so that the cells of the result are the
values at the places one by one (`measure_column`).

A conditional whose test is mixed evaluates both branches at all places.
Values of the branch that is not selected at a place are computed but do
not enter the result.
-/
import Fluxion.Evaluation
import Fluxion.Proofs.Fault
import Mathlib.Data.List.OfFn

namespace Fluxion

variable {α β γ δ : Type} {n : Nat}

namespace Grid

/-- A column over `n` places, with its value at each of them. -/
inductive Column (n : Nat) : Grid α → (Fin n → α) → Prop
  | constant (a : α) : Column n (single a) fun _ => a
  | full (f : Fin n → α) : Column n ⟨[n], List.ofFn f⟩ f

namespace Column

variable {g : Grid α} {h : Grid β} {k : Grid γ} {f : Fin n → α} {f' : Fin n → β} {f'' : Fin n → γ}

theorem shape (hg : Column n g f) : g.shape = [1] ∨ g.shape = [n] := by
  cases hg with
  | constant a => exact .inl rfl
  | full => exact .inr rfl

/-- Repeated to fill all places, the cells are the values there. -/
theorem broadcastTo (hg : Column n g f) : g.broadcastTo [n] = ⟨[n], List.ofFn f⟩ := by
  cases hg with
  | constant a =>
    unfold Grid.broadcastTo
    split
    · next h =>
      obtain rfl : 1 = n := by simpa [single] using h
      rfl
    · next h =>
      have hne : (1 == n) = false := by simpa [single] using h
      simp [single, padded, stretch, hne, List.ofFn_const]
  | full => simp [Grid.broadcastTo]

theorem map (hg : Column n g f) (o : α → β) : Column n (g.map o) fun i => o (f i) := by
  cases hg with
  | constant a => exact .constant (o a)
  | full =>
    have hcells : (List.ofFn f).map o = List.ofFn fun i => o (f i) := List.map_ofFn
    rw [Grid.map, hcells]
    exact .full _

theorem join?_singletons {a b : Nat} (h : a = b ∨ a = 1) : join? [a] [b] = some [b] := by
  rcases h with rfl | rfl
  · simp [join?, padded, joinAligned?]
  · by_cases hb : 1 = b <;> simp [join?, padded, joinAligned?, hb]

theorem join?_singletons_comm {a : Nat} : join? [a] [1] = some [a] := by
  by_cases ha : a = 1 <;> simp [join?, padded, joinAligned?, ha]

/-- Cell by cell over all places. -/
theorem zipWith?_of_join (hg : Column n g f) (hh : Column n h f') (o : α → β → γ)
    (hjoin : join? g.shape h.shape = some [n]) :
    Grid.zipWith? o g h = some ⟨[n], List.ofFn fun i => o (f i) (f' i)⟩ := by
  have hcells : List.zipWith o (List.ofFn f) (List.ofFn f') =
      List.ofFn fun i => o (f i) (f' i) := by
    apply List.ext_getElem <;> simp
  rw [Grid.zipWith?, hjoin, Option.map_some, hg.broadcastTo, hh.broadcastTo, hcells]

/-- Columns of either kind combine place by place. -/
theorem zipWith? (hg : Column n g f) (hh : Column n h f') (o : α → β → γ) :
    ∃ r, Grid.zipWith? o g h = some r ∧ Column n r fun i => o (f i) (f' i) := by
  have hfull (hjoin : join? g.shape h.shape = some [n]) :
      ∃ r, Grid.zipWith? o g h = some r ∧ Column n r fun i => o (f i) (f' i) :=
    ⟨_, hg.zipWith?_of_join hh o hjoin, .full _⟩
  cases hg with
  | constant a =>
    cases hh with
    | constant b => exact ⟨_, rfl, .constant (o a b)⟩
    | full => exact hfull (join?_singletons (.inr rfl))
  | full =>
    cases hh with
    | constant b => exact hfull join?_singletons_comm
    | full => exact hfull (join?_singletons (.inl rfl))

theorem zipWith3? (hg : Column n g f) (hh : Column n h f') (hk : Column n k f'')
    (o : α → β → γ → δ) :
    ∃ r, Grid.zipWith3? o g h k = some r ∧ Column n r fun i => o (f i) (f' i) (f'' i) := by
  obtain ⟨p, hp, hpcol⟩ := hg.zipWith? hh Prod.mk
  obtain ⟨r, hr, hrcol⟩ := hpcol.zipWith? hk fun p z => o p.1 p.2 z
  exact ⟨r, by rw [Grid.zipWith3?, hp]; exact hr, hrcol⟩

/-- With a place at least, the cells are the values. -/
theorem forall_cells_iff (hg : Column n g f) (hn : 0 < n) {P : α → Prop} :
    (∀ a ∈ g.cells, P a) ↔ ∀ i, P (f i) := by
  cases hg with
  | constant a =>
    constructor
    · intro h _
      exact h a (List.mem_singleton_self a)
    · intro h b hb
      rw [List.mem_singleton.mp hb]
      exact h ⟨0, hn⟩
  | full => simp

end Column

end Grid

namespace Tree

open Grid

variable [Scalar α] {env : Environment (Grid α)} {places : Fin n → Environment α} {t : Tree α}

/-! ## Trees -/

/-- Every variable is bound to a column, with the bindings at the places for
its values. -/
def ColumnBound (env : Environment (Grid α)) (places : Fin n → Environment α) (t : Tree α) : Prop :=
  ∀ x ∈ t.names, ∃ g f, env.get? x = some g ∧ Column n g f ∧ ∀ i, (places i).get? x = some (f i)

omit [Scalar α] in
theorem orShapes_zipWith? {g h : Grid α} {f f' : Fin n → α} (hg : Column n g f)
    (hh : Column n h f') (o : α → α → α) : ∃ r, (orShapes (Grid.zipWith? o g h) :
      Except (Fault α) (Grid α)) = .ok r ∧ Column n r fun i => o (f i) (f' i) := by
  obtain ⟨r, hr, hcol⟩ := hg.zipWith? hh o
  exact ⟨r, by rw [hr]; rfl, hcol⟩

omit [Scalar α] in
/-- Under a mask the values are selected place by place, also where it is
the same everywhere and one of the two columns is not looked at. -/
theorem select_column {m : Grid Bool} {k q : Grid α} {b : Fin n → Bool} {f f' : Fin n → α}
    (hn : 0 < n) (hm : Column n m b) (hk : Column n k f) (hq : Column n q f') :
    ∃ r p, (if m.cells.all id then .ok k
        else if !m.cells.any id then .ok q
        else orShapes (Grid.zipWith3? (fun b x y => if b then x else y) m k q) :
          Except (Fault α) (Grid α)) = .ok r ∧
      Column n r p ∧ ∀ i, p i = if b i then f i else f' i := by
  split
  · next hall =>
    have htrue := (hm.forall_cells_iff hn).mp (List.all_eq_true.mp hall)
    exact ⟨k, f, rfl, hk, fun i => (if_pos (htrue i)).symm⟩
  split
  · next hany =>
    have hfalse := (hm.forall_cells_iff hn (P := fun b => b = false)).mp (by simpa using hany)
    exact ⟨q, f', rfl, hq, fun i => by rw [hfalse i]; rfl⟩
  · obtain ⟨r, hr, hcol⟩ := hm.zipWith3? hk hq fun b x y => if b then x else y
    exact ⟨r, _, by rw [hr]; rfl, hcol, fun _ => rfl⟩

/-- **Values place by place.** By induction on the tree. A conditional gives
a column whichever of its branches are evaluated. -/
theorem gridValue_column (hn : 0 < n) (h : t.ColumnBound env places) :
    ∃ g f, t.gridValue env = .ok g ∧ Column n g f ∧ ∀ i, t.value (places i) = .ok (f i) := by
  induction t with
  | var x =>
    obtain ⟨g, f, hg, hcol, hf⟩ := h x (List.mem_singleton_self x)
    exact ⟨g, f, by rw [gridValue, hg], hcol, fun i => by rw [value, hf i]⟩
  | const a => exact ⟨_, _, rfl, .constant a, fun _ => rfl⟩
  | binary op l r hl hr =>
    obtain ⟨g, f, hg, hgcol, hf⟩ := hl fun x hx => h x (List.mem_append_left _ hx)
    obtain ⟨k, f', hk, hkcol, hf'⟩ := hr fun x hx => h x (List.mem_append_right _ hx)
    obtain ⟨q, hq, hqcol⟩ := orShapes_zipWith? hgcol hkcol (Scalar.binary op)
    refine ⟨q, _, ?_, hqcol, fun i => ?_⟩
    · rw [gridValue, hg, hk]; exact hq
    · rw [value, hf, hf']; rfl
  | unary op u hu =>
    obtain ⟨g, f, hg, hcol, hf⟩ := hu h
    refine ⟨_, _, ?_, hcol.map (Scalar.unary op), fun i => ?_⟩
    · rw [gridValue, hg]; rfl
    · rw [value, hf]; rfl
  | relate rel l r hl hr =>
    obtain ⟨g, f, hg, hgcol, hf⟩ := hl fun x hx => h x (List.mem_append_left _ hx)
    obtain ⟨k, f', hk, hkcol, hf'⟩ := hr fun x hx => h x (List.mem_append_right _ hx)
    obtain ⟨q, hq, hqcol⟩ :=
      orShapes_zipWith? hgcol hkcol fun x y => Scalar.indicator (Scalar.holds rel x y)
    refine ⟨q, _, ?_, hqcol, fun i => ?_⟩
    · rw [gridValue, hg, hk]; exact hq
    · rw [value, hf, hf']; rfl
  | branch c t u hc ht hu =>
    obtain ⟨g, f, hg, hgcol, hf⟩ := hc fun x hx => h x (by simp [names, hx])
    obtain ⟨k, f', hk, hkcol, hf'⟩ := ht fun x hx => h x (by simp [names, hx])
    obtain ⟨q, f'', hq, hqcol, hf''⟩ := hu fun x hx => h x (by simp [names, hx])
    obtain ⟨r, p, hr, hrcol, hp⟩ :=
      select_column hn (hgcol.map fun x => Scalar.holds .ne x (Scalar.zero : α)) hkcol hqcol
    refine ⟨r, p, ?_, hrcol, fun i => ?_⟩
    · rw [gridValue, hg, hk, hq]; exact hr
    · rw [value, hf, hf', hf'', hp i]; exact (apply_ite Except.ok _ _ _).symm

/-- The result is refused exactly when it is at some place. -/
theorem evaluateGrid_column (hn : 0 < n) (h : t.ColumnBound env places) :
    (∃ g f, t.evaluateGrid env = .ok g ∧ Column n g f ∧ ∀ i, t.evaluate (places i) = .ok (f i)) ∨
      t.evaluateGrid env = .error (.undefined t) ∧
        ∃ i, t.evaluate (places i) = .error (.undefined t) := by
  obtain ⟨g, f, hg, hcol, hf⟩ := gridValue_column hn h
  have hgrid : t.evaluateGrid env =
      if g.cells.all Scalar.isFinite then .ok g else .error (.undefined t) := by
    rw [evaluateGrid, hg]; rfl
  have hplace (i : Fin n) : t.evaluate (places i) =
      if Scalar.isFinite (f i) then .ok (f i) else .error (.undefined t) := by
    rw [evaluate, hf]; rfl
  rw [hgrid]
  simp only [hplace]
  have hiff := hcol.forall_cells_iff hn (P := fun a => Scalar.isFinite a = true)
  by_cases hall : g.cells.all Scalar.isFinite = true
  · have hfin := hiff.mp (List.all_eq_true.mp hall)
    exact .inl ⟨g, f, if_pos hall, hcol, fun i => if_pos (hfin i)⟩
  · have hfin : ¬∀ i, Scalar.isFinite (f i) = true :=
      fun h => hall (List.all_eq_true.mpr (hiff.mpr h))
    obtain ⟨i, hi⟩ := not_forall.mp hfin
    exact .inr ⟨if_neg hall, i, if_neg hi⟩

end Tree

end Fluxion
