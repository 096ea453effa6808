/-
What a phrase stands for. Most phrases are forms; a formula may also speak
of plain truth values, texts, lists and tables on its way to a form, and
of names that have to be called.

A text stands for the form that it spells, so everything here is given a
function that reads a text.
-/
import Fluxion.Algebra.Library

namespace Fluxion.Algebra

inductive Reading where
  | form (u : Form)
  /-- A plain truth value, which counts as one or zero among whole
  numbers. -/
  | flag (value : Bool)
  | text (s : String)
  | tuple (items : List Reading)
  | list (items : List Reading)
  | set (items : List Reading)
  | table (keys values : List Reading)
  | nothing
  /-- A name of the vocabulary that has to be called. -/
  | callable (name : String)
  /-- A function without a meaning. -/
  | function (name : String)
  | method (owner : Reading) (name : String)
  /-- Start, end and step of a part of a list. -/
  | slice (bounds : List Reading)
  | object (name : String)

abbrev Read := String → Result Reading

namespace Reading

instance : Inhabited Reading := ⟨.nothing⟩

/-! ## Equality -/

mutual

def same : Reading → Reading → Bool
  | .form u, .form v => u == v
  | .flag a, .flag b => a == b
  | .flag a, .form u | .form u, .flag a =>
    u == .truth a || u.int? == some (if a then 1 else 0)
  | .text s, .text t => s == t
  | .tuple as, .tuple bs | .list as, .list bs | .set as, .set bs => sameAll as bs
  | .table ks vs, .table ks' vs' => sameAll ks ks' && sameAll vs vs'
  | .nothing, .nothing => true
  | .callable x, .callable y | .function x, .function y | .object x, .object y => x == y
  | _, _ => false

def sameAll : List Reading → List Reading → Bool
  | [], [] => true
  | a :: as, b :: bs => same a b && sameAll as bs
  | _, _ => false

end

instance : BEq Reading := ⟨same⟩

/-! ## Views -/

/-- The whole number that a reading is; a truth value is one or zero. -/
def whole? : Reading → Option Int
  | .form u => u.int?
  | .flag b => some (if b then 1 else 0)
  | _ => none

def items? : Reading → Option (List Reading)
  | .tuple items | .list items | .set items => some items
  | .table keys _ => some keys
  | .text s => some (s.toList.map fun c => .text (String.ofList [c]))
  | .form (.foreign "Tuple" us) => some (us.map .form)
  | _ => none

/-- Whether a reading counts as true. A comparison that is not decided
does not. -/
def isTrue : Reading → Result Bool
  | .flag b | .form (.truth b) => .ok b
  | .form (.relate _ _ _) => .error .mixedLogic
  | .form u => .ok !u.isZero
  | .text s => .ok (s != "")
  | .tuple items | .list items | .set items | .table items _ => .ok !items.isEmpty
  | .nothing => .ok false
  | _ => .ok true

/-! ## From readings to forms -/

def argument (read : Read) : Reading → Result Form
  | .form u => .ok u
  | .flag b => .ok (.truth b)
  | .text s => do
    match ← read s with
    | .form u => return u
    | .flag b => return .truth b
    | _ => throw .mixedLogic
  | .nothing => .error .noAlgebra
  | _ => .error .mixedLogic

def arguments (read : Read) (args : List Reading) : Result (List Form) :=
  args.mapM (argument read)

/-- The form of an argument that must not be a text. -/
def strictArgument : Reading → Result Form
  | .form u => .ok u
  | .flag b => .ok (.truth b)
  | .text _ => .error .notMathematical
  | _ => .error .mixedLogic

mutual

/-- Whether a reading can take part in mathematics at all; if not, why. -/
def check (read : Read) : Reading → Result Unit
  | .tuple items | .list items | .set items => checkAll read items
  | .table keys values => do
    checkAll read keys
    checkAll read values
  | .text s => do
    let _ ← read s
    return ()
  | .callable name =>
    if Vocabulary.isKind name then .ok () else .error .notMathematical
  | .method _ _ | .slice _ | .object _ => .error .notMathematical
  | _ => .ok ()

def checkAll (read : Read) : List Reading → Result Unit
  | [] => .ok ()
  | a :: as => do
    check read a
    checkAll read as

end

/-- The form that a formula stands for. A kind by itself, a tuple and a set
are mathematical objects without a tree; a list, a text that spells a text
and no value at all have no algebra; the kinds of numbers are taken for
numbers and refused; all else is nothing mathematical. -/
def toForm (read : Read) (a : Reading) : Result Form := do
  let resolved ← match a with
    | .text s => read s
    | a => pure a
  check read resolved
  match resolved with
  | .form u => return u
  | .flag b => return .truth b
  | .tuple _ | .set _ | .table _ _ | .function _ => throw .noTreeForm
  | .list _ | .nothing | .text _ => throw .noAlgebra
  | .callable name =>
    if Vocabulary.numberKinds.contains name then throw .mixedLogic else throw .noTreeForm
  | .method _ _ | .slice _ | .object _ => throw .notMathematical

end Reading

end Fluxion.Algebra
