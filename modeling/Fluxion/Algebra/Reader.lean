/-
Reading a formula. A formula is scanned into tokens, brought into plain
notation, parsed, and worked out by the rules of algebra. Names without a
meaning of their own are symbols.

There are two ways to write: in `Dialect.loose`, operands side by side are
multiplied and `e` is a constant; in `Dialect.strict`, every product has
its sign and only capital letters name constants. Whatever makes no sense
in a loose formula is one fault, `malformedText`, but a closing parenthesis
too many, which is a fault of its own; faults of arithmetic stay what they
are. A text inside a formula is a strict formula.
-/
import Fluxion.Algebra.Phrase
import Fluxion.Algebra.Reading.Member

namespace Fluxion.Algebra

structure Dialect where
  /-- Whether operands side by side are multiplied. -/
  implied : Bool
  /-- Constants beyond those of the vocabulary. -/
  constants : List (String × Form)

namespace Dialect

def loose : Dialect := ⟨true, [("e", .constant .e)]⟩
def strict : Dialect := ⟨false, []⟩

def constant? (d : Dialect) (x : String) : Option Form :=
  match d.constants.find? fun p => p.1 == x with
  | some p => some p.2
  | none => Vocabulary.constant? x

def isKnown (d : Dialect) (x : String) : Bool :=
  (d.constant? x).isSome || Vocabulary.isKnown x

def meaning (d : Dialect) (x : String) : Result Reading :=
  match d.constant? x, x with
  | some u, _ => .ok (.form u)
  | none, "True" => .ok (.flag true)
  | none, "False" => .ok (.flag false)
  | none, "None" => .ok .nothing
  | none, "Q" | none, "..." => .ok (.object x)
  | none, x => if Vocabulary.isCallable x then .ok (.callable x) else .error .unknownName

/-- The tokens of a text in plain notation, with the two faults that
brackets can have. -/
def tokens (d : Dialect) (malformed : Fault Float) (text : String) : Result (List Token) :=
  match (Token.scan? text).bind (Notation.plain? d.isKnown) with
  | none => .error malformed
  | some ts =>
    if !d.implied then
      if Notation.isShallow ts then .ok (Notation.finished ts) else .error malformed
    else if !(Notation.areBalanced 0 ts) then .error .unbalanced
    else if !(Notation.areClosed ts && Notation.isShallow ts) then .error malformed
    else .ok (Notation.finished (Notation.withProducts Vocabulary.isCallable false ts))

end Dialect

def Literal.form (n : Literal) : Form :=
  if n.isDecimal then
    .number (.approximate (.ofRat (Binary.bitsFor n.digitsKept) n.toRat))
  else Form.int (Literal.digitsValue n.base n.whole)

/-! ## Working out -/

namespace Phrase

variable (d : Dialect) (read : Read)

mutual

def evaluate : Phrase → Result Reading
  | .number n => .ok (.form n.form)
  | .rational q => .ok (.form (Form.rational q))
  | .text s => .ok (.text s)
  | .name x => d.meaning x
  | .symbol x => .ok (.form (.symbol x))
  | .function x => .ok (.function x)
  | .unary op p => do Reading.signed op (← evaluate p)
  | .binary op p q => do
    let a ← evaluate p
    let b ← evaluate q
    Reading.combine op a b
  | .chain p links => do
    let a ← evaluate p
    evaluateLinks a links
  | .connective isAnd p q => do
    let a ← evaluate p
    if (← a.isTrue) == isAnd then evaluate q else return a
  | .choice c p q => do
    let a ← evaluate c
    if ← a.isTrue then evaluate p else evaluate q
  | .call p args => do
    let callee ← evaluate p
    let args ← evaluateArguments args
    Reading.callAny read callee args.1 args.2
  | .item p q => do
    let owner ← evaluate p
    let position ← evaluate q
    Reading.item owner position
  | .slice bounds => do return .slice (← evaluateBounds bounds)
  | .member p x => do Reading.member (← evaluate p) x
  | .spread p => evaluate p
  | .tuple ps => do return .tuple (← evaluateAll ps)
  | .list ps => do return .list (← evaluateAll ps)
  | .set ps => do return .set (← evaluateAll ps)
  | .table entries => do
    let es ← evaluateEntries entries
    return .table (es.map Prod.fst) (es.map Prod.snd)

/-- Items, those of a spread list in its place. -/
def evaluateAll : List Phrase → Result (List Reading)
  | [] => .ok []
  | p :: ps => do
    let a ← evaluate p
    let rest ← evaluateAll ps
    match p with
    | .spread _ =>
      match a.items? with
      | some items => return items ++ rest
      | none => throw .mixedLogic
    | _ => return a :: rest

/-- Comparisons one after the other, as long as they are known to hold. -/
def evaluateLinks (a : Reading) : List (String × Phrase) → Result Reading
  | [] => .ok (.flag true)
  | (op, p) :: links => do
    let b ← evaluate p
    let c ← Reading.compared op a b
    if links.isEmpty then return c
    else if ← c.isTrue then evaluateLinks b links
    else return c

def evaluateArguments : List (Option String × Phrase) → Result (List Reading × Reading.Named)
  | [] => .ok ([], [])
  | (x, p) :: args => do
    let a ← evaluate p
    let rest ← evaluateArguments args
    match x, p with
    | some x, _ => return (rest.1, (x, a) :: rest.2)
    | none, .spread _ =>
      match a.items? with
      | some items => return (items ++ rest.1, rest.2)
      | none => throw .mixedLogic
    | none, _ => return (a :: rest.1, rest.2)

def evaluateBounds : List (Option Phrase) → Result (List Reading)
  | [] => .ok []
  | none :: bounds => do return .nothing :: (← evaluateBounds bounds)
  | some p :: bounds => do
    let a ← evaluate p
    return a :: (← evaluateBounds bounds)

def evaluateEntries : List (Phrase × Phrase) → Result (List (Reading × Reading))
  | [] => .ok []
  | (k, v) :: entries => do
    let a ← evaluate k
    let b ← evaluate v
    return (a, b) :: (← evaluateEntries entries)

end

end Phrase

/-! ## Reading -/

namespace Reading

/-- What a strict formula stands for; a text inside it is read with one
level less. -/
def strictWith : (levels : Nat) → Read
  | 0, _ => .error .notMathematical
  | levels + 1, s => do
    let joined := String.ofList (s.toList.filter fun c => c != '\n')
    let ts ← Dialect.strict.tokens .notMathematical joined
    match Phrase.ofTokens? ts with
    | none => throw .notMathematical
    | some p => p.evaluate .strict (strictWith levels)

def strict : Read := strictWith 4

def isSenseless : Fault Float → Bool
  | .mixedLogic | .noAlgebra | .notMathematical => true
  | _ => false

def ofText (text : String) : Result Reading :=
  if (Text.trimmed text.toList).isEmpty then .error .emptyText
  else do
    let ts ← Dialect.loose.tokens .malformedText text
    match Phrase.ofTokens? ts with
    | none => throw .malformedText
    | some p =>
      match p.evaluate .loose strict with
      | .ok a => return a
      | .error e => throw (if isSenseless e then .malformedText else e)

end Reading

def Form.ofText (text : String) : Result Form := do (← Reading.ofText text).toForm Reading.strict

end Fluxion.Algebra

namespace Fluxion

/-- The tree that a formula spells. -/
def Tree.ofText (text : String) : Algebra.Result (Tree Float) := do
  (← Algebra.Form.ofText text).toTree

end Fluxion
