/-
The tokens of a formula: numbers, words, quoted texts and marks. A word is
a name if it begins like one; a quoted text may be raw, may run over
several lines between threefold quotes, and may stand for the codes of its
characters.

Blanks separate tokens. A line break does so only inside brackets, and a
number sign starts a comment; both leave a gap, which keeps the tokens on
its sides apart. A character that begins no token is stray, and so are the
blanks in front of it.

Three more kinds of token stand for what the notation of a formula makes
of names and repeating decimals; no text is scanned into them.
-/
import Fluxion.Algebra.Literal
import Fluxion.Text.Word

namespace Fluxion.Algebra

inductive Token where
  | number (n : Literal)
  | name (x : String)
  | text (s : String)
  | codes (ns : List Nat)
  | mark (s : String)
  /-- A comment, or a line break that counts for nothing. -/
  | gap
  /-- A character that begins no token. -/
  | stray (c : Char)
  /-- A name without a meaning of its own. -/
  | symbol (x : String)
  /-- A name without a meaning of its own, in front of a parenthesis. -/
  | function (x : String)
  /-- A repeating decimal. -/
  | rational (q : Rat)
deriving DecidableEq

namespace Token

/-! ## Marks -/

/-- Marks of more than one character, the longer ones first. -/
def longMarks : List String :=
  ["...", "**=", "//=", "<<=", ">>=", "**", "//", "<=", ">=", "==", "!=", "<>", "<<", ">>", "->",
    ":=", "+=", "-=", "*=", "/=", "%=", "&=", "|=", "^=", "@="]

def isMark (c : Char) : Bool := "%&()*+,-./:;<=>@[]^\x7b|\x7d~".contains c

/-- The mark in front of a text; the first character where there is
none. -/
def takeMark (cs : List Char) : List Char :=
  match longMarks.find? fun m => m.toList.isPrefixOf cs with
  | some m => m.toList
  | none => cs.take 1

/-- The marks that characters spell; `fuel` has to reach their number. -/
def marksOf : (fuel : Nat) → List Char → List Token
  | 0, _ => []
  | _, [] => []
  | fuel + 1, cs =>
    let m := takeMark cs
    .mark (String.ofList m) :: marksOf fuel (cs.drop m.length)

/-! ## Quoted texts -/

def afterBreak? : List Char → Option (List Char)
  | '\n' :: rest => some rest
  | '\r' :: '\n' :: rest => some rest
  | _ => none

def hexValue? (ds : List Char) : Option Nat :=
  let values := ds.map Literal.digitValue
  if values.all fun d => d < 16 then some (Literal.digitsValue 16 values) else none

def takeCode (count : Nat) (cs : List Char) : Option (List Char × List Char) := do
  let ds := cs.take count
  if ds.length != count then none
  else some ([Char.ofNat (← hexValue? ds)], cs.drop count)

/-- What a backslash and the character behind it stand for. A pair without
a meaning stands for itself. -/
def takeEscape (c : Char) (rest : List Char) : Option (List Char × List Char) :=
  match c with
  | '\n' => some ([], rest)
  | '\\' | '\'' | '"' => some ([c], rest)
  | 'n' => some (['\n'], rest)
  | 't' => some (['\t'], rest)
  | 'r' => some (['\r'], rest)
  | 'a' => some (['\x07'], rest)
  | 'b' => some (['\x08'], rest)
  | 'f' => some (['\x0c'], rest)
  | 'v' => some (['\x0b'], rest)
  | 'x' => takeCode 2 rest
  | 'u' => takeCode 4 rest
  | 'U' => takeCode 8 rest
  | 'N' => none
  | c =>
    if Literal.digitValue c < 8 then
      let more := (rest.take 2).takeWhile fun d => Literal.digitValue d < 8
      let n := Literal.digitsValue 8 ((c :: more).map Literal.digitValue)
      some ([Char.ofNat n], rest.drop more.length)
    else some (['\\', c], rest)

/-- A text up to its closing quotes, and what follows them; `fuel` has to
reach the length. -/
def takeQuoted (raw : Bool) (quotes : List Char) :
    (fuel : Nat) → List Char → Option (List Char × List Char)
  | 0, _ => none
  | fuel + 1, cs =>
    if quotes.isPrefixOf cs then some ([], cs.drop quotes.length)
    else
      match cs with
      | '\\' :: c :: rest => do
        let e ← if raw then some (['\\', c], rest) else takeEscape c rest
        let t ← takeQuoted raw quotes fuel e.2
        some (e.1 ++ t.1, t.2)
      | c :: rest => do
        let isBreak := c == '\n' || c == '\r'
        if isBreak && quotes.length == 1 then none
        else
          let t ← takeQuoted raw quotes fuel ((afterBreak? cs).getD rest)
          some ((if isBreak then '\n' else c) :: t.1, t.2)
      | [] => none

/-- How the letters in front of a quoted text have it read. -/
structure Quoting where
  /-- Backslashes stand for themselves. -/
  raw : Bool
  /-- Braces would be filled in. -/
  filled : Bool
  /-- The text stands for the codes of its characters. -/
  coded : Bool

def quotings : List (String × Quoting) :=
  [("", ⟨false, false, false⟩), ("u", ⟨false, false, false⟩), ("r", ⟨true, false, false⟩),
    ("f", ⟨false, true, false⟩), ("fr", ⟨true, true, false⟩), ("rf", ⟨true, true, false⟩),
    ("b", ⟨false, false, true⟩), ("br", ⟨true, false, true⟩), ("rb", ⟨true, false, true⟩)]

def quoting? (letters : List Char) : Option Quoting :=
  (quotings.find? fun p => p.1 == String.ofList (letters.map Char.toLower)).map Prod.snd

/-- What a text between its quotes is; nothing can be filled in, and only
characters of ASCII have a code. -/
def ofQuoted? (q : Quoting) (cs : List Char) : Option Token :=
  if q.filled && (cs.contains '\x7b' || cs.contains '\x7d') then none
  else if !q.coded then some (.text (String.ofList cs))
  else if cs.all fun c => c.toNat < 256 then some (.codes (cs.map Char.toNat))
  else none

def takeText? (letters cs : List Char) : Option (Token × List Char) := do
  let c ← cs.head?
  if c != '"' && c != '\'' then none
  else
    let q ← quoting? letters
    let quotes := if [c, c, c].isPrefixOf cs then [c, c, c] else [c]
    let t ← takeQuoted q.raw quotes (cs.length + 1) (cs.drop quotes.length)
    let token ← ofQuoted? q t.1
    some (token, t.2)

/-! ## The tokens of a text -/

def isSpace (c : Char) : Bool := c == ' ' || c == '\t' || c == '\x0c'

def startsNumber : List Char → Bool
  | '.' :: c :: _ => c.isDigit
  | c :: _ => c.isDigit
  | [] => false

/-- The token in front of a text that does not begin with a blank. A word
that is no name is a mark that no formula has. -/
def take? (cs : List Char) : Option (Token × List Char) :=
  if startsNumber cs then
    let n := Literal.take cs
    some (.number n.1, n.2)
  else
    let word := cs.takeWhile Text.isWord
    let after := cs.drop word.length
    match takeText? word after, word with
    | some t, _ => some t
    | none, c :: _ =>
      let x := String.ofList word
      some (if Text.beginsName c then .name x else .mark x, after)
    | none, [] =>
      let m := takeMark cs
      if 1 < m.length || m.any isMark then some (.mark (String.ofList m), cs.drop m.length)
      else none

def deepen (depth : Int) (t : Token) : Int :=
  if t == .mark "(" || t == .mark "[" || t == .mark "\x7b" then depth + 1
  else if t == .mark ")" || t == .mark "]" || t == .mark "\x7d" then depth - 1
  else depth

def opensLongText (cs : List Char) : Bool :=
  ['"', '\''].any fun c => [c, c, c].isPrefixOf cs

/-- Whether blanks at the beginning of a line move it to the right; a form
feed goes back to the left. -/
def isIndent (blanks : List Char) : Bool := (blanks.getLast?.any fun c => c != '\x0c')

/-- A stray character. A carriage return is a blank inside brackets and a
line break outside. -/
def strayAt (depth : Int) (c : Char) : Token :=
  if c != '\r' then .stray c else if 0 < depth then .stray ' ' else .stray '\n'

/-- The tokens of a text at a bracket depth, as many brackets being closed
as are opened, and threefold quotes being closed. `fresh` says that a line
begins here that continues none; such a line may be empty or a comment,
but not indented. `fuel` has to reach twice the length of the text. -/
def scanFrom : (fuel : Nat) → (depth : Int) → (fresh : Bool) → List Char → Option (List Token)
  | 0, _, _, _ => none
  | fuel + 1, depth, fresh, input =>
    let blanks := input.takeWhile isSpace
    let cs := input.drop blanks.length
    match cs, afterBreak? cs with
    | [], _ => if depth == 0 then some [] else none
    | '#' :: rest, _ =>
      let isEnd (c : Char) : Bool := c == '\n' || (c == '\r' && !fresh)
      (scanFrom fuel depth fresh (rest.dropWhile fun c => !isEnd c)).map (.gap :: ·)
    | _, some rest =>
      if fresh || 0 < depth then (scanFrom fuel depth fresh rest).map (.gap :: ·)
      else (scanFrom fuel depth (depth == 0) rest).map (.mark "\n" :: ·)
    | c :: rest, none =>
      if fresh && isIndent blanks then (scanFrom fuel depth false cs).map (.mark "\t" :: ·)
      else
        match if c == '\\' then afterBreak? rest else none with
        | some rest => scanFrom fuel depth false rest
        | none =>
          match take? cs with
          | some (t, rest) => (scanFrom fuel (deepen depth t) false rest).map (t :: ·)
          | none =>
            if opensLongText cs then none
            else
              let strays := (blanks ++ [c]).map (strayAt depth)
              (scanFrom fuel depth false rest).map (strays ++ ·)

/-- The tokens of a text, blanks around it ignored. -/
def scan? (text : String) : Option (List Token) :=
  let cs := Text.trimmed text.toList
  scanFrom (2 * cs.length + 2) 0 true cs

end Token

end Fluxion.Algebra
