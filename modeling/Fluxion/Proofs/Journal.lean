/-
What the console of a journal shows. Opening a journal sets the verbosity and,
unless it is silent, opens a console; changing the verbosity of an open
journal leaves the console alone. So over any sequence of actions the console
tells whether the journal was opened silent, and the verbosity is the one
asked for last (`isOpen_after`).

A note is shown as a journal opened anew with the verbosity in force would
show it, unless just one of the two verbosities is silent and something of
the note is written at all (`shows_iff_anew_iff`).
-/
import Fluxion.Journal

namespace Fluxion.Journal

/-! ## Actions -/

/-- What is done with a journal. -/
inductive Action where
  | configure (v : Verbosity) (file : Option String)
  | setVerbosity (v : Verbosity)
  | get
  | write (n : Note)

namespace Action

def verbosity? : Action → Option Verbosity
  | .configure v _ | .setVerbosity v => some v
  | .get | .write _ => none

end Action

def act (j : Journal) : Action → Journal
  | .configure v file => j.configure v file
  | .setVerbosity v => j.setVerbosity v
  | .get => j.opened
  | .write n => (j.write n).journal

def after (as : List Action) : Journal := as.foldl act closed

/-- The verbosity with which a journal was opened, and the one in force. -/
structure Course where
  first : Verbosity
  now : Verbosity

namespace Course

/-- An action on a journal of this course, or on none: configuring opens a
journal, and so does every other action where there is none. -/
def step : Option Course → Action → Course
  | _, .configure v _ => ⟨v, v⟩
  | some c, a => ⟨c.first, a.verbosity?.getD c.now⟩
  | none, a => ⟨a.verbosity?.getD .moderate, a.verbosity?.getD .moderate⟩

/-- The course after a sequence of actions; a note that comes first is
written at moderate verbosity. -/
def of (as : List Action) : Course :=
  (as.foldl (fun c a => some (step c a)) none).getD ⟨.moderate, .moderate⟩

end Course

/-! ## Verbosity and console -/

/-- The journal is open; its console tells how it was opened. -/
structure IsOpen (j : Journal) (c : Course) : Prop where
  verbosity : j.verbosity = some c.now
  console : j.console = decide (c.first ≠ .silent)

/-- The journal has this course, or is not open. -/
def Follows (j : Journal) : Option Course → Prop
  | some c => j.IsOpen c
  | none => j.verbosity = none

variable {j : Journal} {c : Course}

theorem isOpen_configure (j : Journal) (v : Verbosity) (file : Option String) :
    (j.configure v file).IsOpen ⟨v, v⟩ :=
  ⟨rfl, rfl⟩

theorem IsOpen.opened (h : j.IsOpen c) : j.opened = j := by
  rw [Journal.opened, h.verbosity]

theorem IsOpen.setVerbosity (h : j.IsOpen c) (v : Verbosity) :
    (j.setVerbosity v).IsOpen ⟨c.first, v⟩ := by
  rw [Journal.setVerbosity, h.verbosity]
  exact ⟨rfl, h.console⟩

/-- Writing opens the journal and leaves it at that. -/
theorem isOpen_write (h : j.opened.IsOpen c) (n : Note) : (j.write n).journal.IsOpen c := by
  rw [write]
  dsimp only
  split
  · exact ⟨h.verbosity, h.console⟩
  · exact h

theorem opened_of_closed (h : j.verbosity = none) : j.opened = j.configure .moderate none := by
  rw [opened, h]

/-- **One action** opens the journal or carries its course on. -/
theorem Follows.act {o : Option Course} (h : j.Follows o) (a : Action) :
    (j.act a).IsOpen (Course.step o a) := by
  cases o with
  | none =>
    have hopened := opened_of_closed h
    cases a with
    | configure v file => exact isOpen_configure j v file
    | setVerbosity v =>
      rw [Journal.act, Journal.setVerbosity, show j.verbosity = none from h]
      exact isOpen_configure j v none
    | get =>
      rw [Journal.act, hopened]
      exact isOpen_configure j .moderate none
    | write n =>
      refine isOpen_write ?_ n
      rw [hopened]
      exact isOpen_configure j .moderate none
  | some c =>
    have hopened : j.opened = j := IsOpen.opened h
    cases a with
    | configure v file => exact isOpen_configure j v file
    | setVerbosity v => exact IsOpen.setVerbosity h v
    | get =>
      rw [Journal.act, hopened]
      exact h
    | write n =>
      refine isOpen_write ?_ n
      rw [hopened]
      exact h

/-- **A whole sequence of actions** carries the course on. -/
theorem Follows.run {o : Option Course} (h : j.Follows o) (as : List Action) :
    (as.foldl Journal.act j).Follows (as.foldl (fun c a => some (Course.step c a)) o) := by
  induction as generalizing j o with
  | nil => exact h
  | cons a as ih => exact ih (o := some (Course.step o a)) (h.act a)

/-- **After any sequence of actions** a journal that is asked for has the
verbosity asked for last, and a console unless it was opened silent. -/
theorem isOpen_after (as : List Action) : (after as).opened.IsOpen (Course.of as) := by
  have hclosed : closed.Follows none := rfl
  have h : (after as).Follows _ := hclosed.run as
  unfold Course.of
  generalize as.foldl (fun c a => some (Course.step c a)) none = o at h
  cases o with
  | none =>
    rw [opened_of_closed h]
    exact isOpen_configure _ .moderate none
  | some c =>
    rw [IsOpen.opened h]
    exact h

/-! ## What the console shows -/

/-- Something of the note appears on the console. -/
def Shows (j : Journal) (n : Note) : Prop := (j.write n).console ≠ ""

instance (j : Journal) (n : Note) : Decidable (j.Shows n) := inferInstanceAs (Decidable (_ ≠ _))

theorem line_ne_empty (r : Record) : r.line ≠ "" := by
  intro h
  have hlist := congrArg String.toList h
  simp [Record.line] at hlist

theorem join_lines_eq_empty {rs : List Record} :
    String.join (rs.map Record.line) = "" ↔ rs = [] := by
  cases rs with
  | nil => simp
  | cons r rs => simp [String.join_cons, line_ne_empty]

theorem IsOpen.shows_iff (h : j.opened.IsOpen c) (n : Note) :
    j.Shows n ↔ c.first ≠ .silent ∧ n.records c.now ≠ [] := by
  rw [Shows, write]
  dsimp only
  rw [h.verbosity, h.console, Option.getD_some]
  by_cases hfirst : c.first = .silent
  · simp [hfirst]
  · simp [hfirst, join_lines_eq_empty]

/-- **When the console depends on the verbosity in force alone.** After any
sequence of actions a note is shown if and only if a journal opened anew with
the verbosity in force would show it, exactly if the note is not written at
that verbosity or the journal was opened silent just if it is silent now. -/
theorem shows_iff_anew_iff (as : List Action) (n : Note) :
    ((after as).Shows n ↔ (closed.configure (Course.of as).now none).Shows n) ↔
      n.records (Course.of as).now = [] ∨
        ((Course.of as).first = .silent ↔ (Course.of as).now = .silent) := by
  have hafter := (isOpen_after as).shows_iff n
  generalize Course.of as = c at hafter ⊢
  have hanew : (closed.configure c.now none).opened.IsOpen ⟨c.now, c.now⟩ :=
    isOpen_configure closed c.now none
  rw [hafter, hanew.shows_iff n]
  by_cases hrecords : n.records c.now = []
  · simp [hrecords]
  · simp only [ne_eq, hrecords, not_false_eq_true, and_true, false_or]
    rw [Decidable.not_iff_not]

/-- A journal opened silent and made verbose has no console; one opened
verbose and made silent has one, and still shows what needs no verbosity. -/
theorem shows_not_as_anew :
    (¬(after [.configure .silent none, .setVerbosity .verbose]).Shows (.info "started" .minimal) ∧
      (closed.configure .verbose none).Shows (.info "started" .minimal)) ∧
    ((after [.configure .verbose none, .setVerbosity .silent]).Shows (.info "started" .silent) ∧
      ¬(closed.configure .silent none).Shows (.info "started" .silent)) ∧
    ¬∀ (as : List Action) (n : Note),
      (after as).Shows n ↔ (closed.configure (Course.of as).now none).Shows n := by
  have hraised : ¬(after [.configure .silent none, .setVerbosity .verbose]).Shows
      (.info "started" .minimal) := fun h => h rfl
  have hverbose : (closed.configure .verbose none).Shows (.info "started" .minimal) := by decide
  have hlowered : (after [.configure .verbose none, .setVerbosity .silent]).Shows
      (.info "started" .silent) := by decide
  have hsilent : ¬(closed.configure .silent none).Shows (.info "started" .silent) := fun h => h rfl
  exact ⟨⟨hraised, hverbose⟩, ⟨hlowered, hsilent⟩, fun h => hraised ((h _ _).mpr hverbose)⟩

end Fluxion.Journal
