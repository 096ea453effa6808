/-
The journal: notes are written at a verbosity, and a note that the
verbosity admits becomes records, which go to the console and to a file
where these are open.

Opening a journal closes the outlets of the one before it and opens a
console unless it is silent. Changing the verbosity of an open journal
leaves its outlets as they are, so one that was opened silent stays
without a console. A note written when no journal is open opens one of
moderate verbosity first.
-/
import Fluxion.Decimal.Layout
import Fluxion.Double.Arithmetic
import Fluxion.Operand

namespace Fluxion

/-- How much is written, from nothing to every attempt. -/
inductive Verbosity where
  | silent
  | minimal
  | moderate
  | detailed
  | verbose
deriving DecidableEq

namespace Verbosity

def all : List Verbosity := [.silent, .minimal, .moderate, .detailed, .verbose]

def rank : Verbosity → Nat
  | .silent => 0
  | .minimal => 1
  | .moderate => 2
  | .detailed => 3
  | .verbose => 4

def heading : Verbosity → String
  | .silent => "SILENT"
  | .minimal => "MINIMAL"
  | .moderate => "MODERATE"
  | .detailed => "DETAILED"
  | .verbose => "VERBOSE"

def ofHeading? (s : String) : Option Verbosity := all.find? fun v => v.heading == s

/-- Whether what needs the second verbosity is written at the first. -/
def admits (v required : Verbosity) : Bool := required.rank ≤ v.rank

end Verbosity

/-! ## Records -/

inductive Severity where
  | debug
  | info
  | warning
  | error

def Severity.heading : Severity → String
  | .debug => "DEBUG"
  | .info => "INFO"
  | .warning => "WARNING"
  | .error => "ERROR"

structure Record where
  severity : Severity
  message : String

/-- The line of a record in an outlet. -/
def Record.line (r : Record) : String := r.severity.heading ++ " - " ++ r.message ++ "\n"

/-! ## Notes -/

abbrev Findings := List (String × List (String × Operand Float))

inductive Note where
  | info (message : String) (required : Verbosity)
  | milestone (message : String)
  | warning (message : String)
  | debug (message : String)
  | critical (message : String)
  | summary (findings : Findings)

namespace Note

/-- A label filled up with dots to thirty characters. -/
def dotted (label : String) : String :=
  label ++ String.ofList (List.replicate (30 - label.length) '.')

/-- A result in a summary; a number has at most ten digits. -/
def result : Operand Float → String
  | .real x => Decimal.general 10 x
  | o => o.spelled

def rule : String := String.ofList (List.replicate 60 '=')

/-- The lines of a summary. The time since the journal was opened is not
part of a journal's state and is shown as `T`. -/
def summaryLines (findings : Findings) : List String :=
  [rule, "SYMBOLIC VS NUMERIC (Ts since start):", rule] ++
    findings.flatMap fun op => op.2.map fun q => dotted (op.1 ++ "." ++ q.1) ++ " " ++ result q.2

/-- What becomes of a note at a verbosity. -/
def records (v : Verbosity) : Note → List Record
  | .info m required => if v.admits required then [⟨.info, m⟩] else []
  | .milestone m => if v = .silent then [] else [⟨.info, "MILESTONE: " ++ m⟩]
  | .warning m => if v.admits .minimal then [⟨.warning, m⟩] else []
  | .debug m => if v.admits .verbose then [⟨.debug, "DEBUG: " ++ m⟩] else []
  | .critical m => if v = .silent then [] else [⟨.error, "CRITICAL: " ++ m⟩]
  | .summary findings =>
    if v.admits .detailed then (summaryLines findings).map fun m => ⟨.info, m⟩ else []

end Note

/-! ## The journal -/

structure Journal where
  verbosity : Option Verbosity
  console : Bool
  file : Option String
  /-- The files written so far, by name, with their text. -/
  files : List (String × String)

namespace Journal

def closed : Journal := ⟨none, false, none, []⟩

/-- Appends to a file, which is created where it does not exist. -/
def append (name text : String) : List (String × String) → List (String × String)
  | [] => [(name, text)]
  | f :: rest =>
    if f.1 == name then (name, f.2 ++ text) :: rest
    else if Tree.precedes name.toList f.1.toList then (name, text) :: f :: rest
    else f :: append name text rest

/-- Opens a journal afresh. -/
def configure (j : Journal) (v : Verbosity) (file : Option String) : Journal where
  verbosity := some v
  console := decide (v ≠ .silent)
  file := file
  files :=
    match file with
    | some name => append name "" j.files
    | none => j.files

/-- An open journal as it is; otherwise one of moderate verbosity. -/
def opened (j : Journal) : Journal :=
  match j.verbosity with
  | some _ => j
  | none => j.configure .moderate none

/-- Changes the verbosity, or opens a journal with it. -/
def setVerbosity (j : Journal) (v : Verbosity) : Journal :=
  match j.verbosity with
  | some _ => { j with verbosity := some v }
  | none => j.configure v none

/-- Forgets the verbosity; the next note opens a journal anew. -/
def forget (j : Journal) : Journal := { j with verbosity := none }

def outlets (j : Journal) : List String :=
  (if j.console then ["StreamHandler"] else []) ++
    (if j.file.isSome then ["FileHandler"] else [])

/-- What writing left behind. -/
structure Written where
  journal : Journal
  records : List Record
  console : String

def write (j : Journal) (n : Note) : Written :=
  let o := j.opened
  let rs := n.records (o.verbosity.getD .moderate)
  let text := String.join (rs.map Record.line)
  { journal :=
      match o.file with
      | some name => { o with files := append name text o.files }
      | none => o
    records := rs
    console := if o.console then text else "" }

def writeAll (j : Journal) (notes : List Note) : Written :=
  notes.foldl
    (fun w n =>
      let w' := w.journal.write n
      ⟨w'.journal, w.records ++ w'.records, w.console ++ w'.console⟩)
    ⟨j, [], ""⟩

end Journal

end Fluxion
