/-
Names of symbols as they are typeset: Greek letters and other named signs
become commands, endings that name an accent become that accent, digits at
the end and parts after an underscore become subscripts, parts after a
caret or a double underscore superscripts.
-/
import Fluxion.Text.Digit
import Fluxion.Text.Word

namespace Fluxion.Text.Symbol

def greek : List String :=
  ["alpha", "beta", "gamma", "delta", "epsilon", "zeta", "eta", "theta", "iota", "kappa", "lambda",
    "mu", "nu", "xi", "omicron", "pi", "rho", "sigma", "tau", "upsilon", "phi", "chi", "psi",
    "omega"]

/-- Letters whose command is not their name, among them the capitals that
look like Latin ones. -/
def letters : List (String × String) :=
  [("Alpha", "\\mathrm\x7bA\x7d"), ("Beta", "\\mathrm\x7bB\x7d"), ("Epsilon", "\\mathrm\x7bE\x7d"),
    ("Zeta", "\\mathrm\x7bZ\x7d"), ("Eta", "\\mathrm\x7bH\x7d"), ("Iota", "\\mathrm\x7bI\x7d"),
    ("Kappa", "\\mathrm\x7bK\x7d"), ("Mu", "\\mathrm\x7bM\x7d"), ("Nu", "\\mathrm\x7bN\x7d"),
    ("omicron", "o"), ("Omicron", "\\mathrm\x7bO\x7d"), ("Rho", "\\mathrm\x7bP\x7d"),
    ("Tau", "\\mathrm\x7bT\x7d"), ("Chi", "\\mathrm\x7bX\x7d"), ("lamda", "\\lambda"),
    ("Lamda", "\\Lambda"), ("khi", "\\chi"), ("Khi", "\\mathrm\x7bX\x7d"),
    ("varepsilon", "\\varepsilon"), ("varkappa", "\\varkappa"), ("varphi", "\\varphi"),
    ("varpi", "\\varpi"), ("varrho", "\\varrho"), ("varsigma", "\\varsigma"),
    ("vartheta", "\\vartheta")]

def signs : List String :=
  ["aleph", "beth", "daleth", "gimel", "ell", "eth", "hbar", "hslash", "mho", "wp"]

/-- Endings that name an accent, the longer ones first, with what is
written before and after. -/
def accents : List (String × String × String) :=
  [("mathring", "\\mathring\x7b", "\x7d"), ("ddddot", "\\ddddot\x7b", "\x7d"),
    ("dddot", "\\dddot\x7b", "\x7d"), ("check", "\\check\x7b", "\x7d"),
    ("breve", "\\breve\x7b", "\x7d"), ("acute", "\\acute\x7b", "\x7d"),
    ("grave", "\\grave\x7b", "\x7d"), ("tilde", "\\tilde\x7b", "\x7d"), ("prime", "\x7b", "\x7d'"),
    ("ddot", "\\ddot\x7b", "\x7d"), ("bold", "\\boldsymbol\x7b", "\x7d"),
    ("norm", "\\left\\|\x7b", "\x7d\\right\\|"), ("frak", "\\mathfrak\x7b", "\x7d"),
    ("dot", "\\dot\x7b", "\x7d"), ("hat", "\\hat\x7b", "\x7d"), ("bar", "\\bar\x7b", "\x7d"),
    ("vec", "\\vec\x7b", "\x7d"), ("prm", "\x7b", "\x7d'"), ("cal", "\\mathcal\x7b", "\x7d"),
    ("scr", "\\mathscr\x7b", "\x7d"), ("avg", "\\left\\langle\x7b", "\x7d\\right\\rangle"),
    ("abs", "\\left|\x7b", "\x7d\\right|"), ("mag", "\\left|\x7b", "\x7d\\right|"),
    ("bm", "\\boldsymbol\x7b", "\x7d")]

def endsIn (ending text : List Char) : Bool := ending.reverse.isPrefixOf text.reverse

def lower (cs : List Char) : List Char := cs.map Char.toLower

/-- One part of a name; `fuel` has to reach the number of its accents. -/
def part : (fuel : Nat) → List Char → String
  | 0, cs => String.ofList cs
  | fuel + 1, cs =>
    let s := String.ofList cs
    match letters.find? fun l => l.1 == s with
    | some l => l.2
    | none =>
      if greek.contains (String.ofList (lower cs)) || signs.contains s then "\\" ++ s
      else
        match accents.find? fun a =>
          endsIn a.1.toList (lower cs) && a.1.length < cs.length with
        | some a => a.2.1 ++ part fuel (cs.take (cs.length - a.1.length)) ++ a.2.2
        | none => s

inductive Place where
  | base
  | above
  | below
deriving DecidableEq

/-- Cuts a name at carets and underscores; a part keeps the place that the
mark before it gives. -/
def cut : Place → List Char → List Char → List (Place × List Char)
  | place, acc, [] => [(place, acc.reverse)]
  | place, acc, '_' :: '_' :: rest =>
    if acc.isEmpty && place == .base then cut place ['_', '_'] rest
    else (place, acc.reverse) :: cut .above [] rest
  | place, acc, c :: rest =>
    if (c == '_' || c == '^') && !(acc.isEmpty && place == .base) then
      (place, acc.reverse) :: cut (if c == '^' then .above else .below) [] rest
    else cut place (c :: acc) rest

/-- Digits at the end of letters are a subscript. -/
def splitDigits (cs : List Char) : List Char × List Char :=
  let digits := (cs.reverse.takeWhile isDigit).reverse
  let front := cs.take (cs.length - digits.length)
  let isLetter (c : Char) : Bool := isWord c && !isDigit c && c != '_'
  if !digits.isEmpty && !front.isEmpty && front.all isLetter then
    (front, digits)
  else (cs, [])

def typeset (name : String) : String :=
  let cs := name.toList
  if cs.contains '\x7b' then name
  else
    let parts := cut .base [] cs
    let write (cs : List Char) : String := part (cs.length + 1) cs
    let placed (p : Place) : List (List Char) := (parts.filter fun q => q.1 == p).map Prod.snd
    let base := splitDigits ((placed .base).headD [])
    let above := (placed .above).map write
    let below := ((if base.2.isEmpty then [] else [base.2]) ++ placed .below).map write
    let script (mark : String) (ss : List String) : String :=
      if ss.isEmpty then "" else mark ++ "\x7b" ++ " ".intercalate ss ++ "\x7d"
    write base.1 ++ script "^" above ++ script "_" below

end Fluxion.Text.Symbol
