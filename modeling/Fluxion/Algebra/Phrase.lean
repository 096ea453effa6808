/-
The structure of a formula: a choice by a condition, connectives,
comparisons, operators by precedence, and operands with what follows them:
arguments, positions in brackets, members behind a point. A power binds
tighter than a sign in front of it and associates to the right;
comparisons may be chained.
-/
import Fluxion.Algebra.Notation

namespace Fluxion.Algebra

/-- A formula as it is written. -/
inductive Phrase where
  | number (n : Literal)
  | rational (q : Rat)
  | text (s : String)
  | name (x : String)
  | symbol (x : String)
  /-- A function without a meaning. -/
  | function (x : String)
  | unary (op : String) (operand : Phrase)
  | binary (op : String) (left right : Phrase)
  /-- A first operand, and comparisons with one more operand each. -/
  | chain (first : Phrase) (links : List (String × Phrase))
  /-- The second operand only counts where the first does not decide. -/
  | connective (isAnd : Bool) (left right : Phrase)
  | choice (condition holds fails : Phrase)
  /-- A call; a named argument carries its name. -/
  | call (callee : Phrase) (arguments : List (Option String × Phrase))
  | item (owner position : Phrase)
  /-- Start, end and step of a part of a list. -/
  | slice (bounds : List (Option Phrase))
  | member (owner : Phrase) (name : String)
  /-- The items of a list in place of the list. -/
  | spread (items : Phrase)
  | tuple (items : List Phrase)
  | list (items : List Phrase)
  | set (items : List Phrase)
  | table (entries : List (Phrase × Phrase))

namespace Phrase

/-! ## Operators -/

/-- Operators that associate to the left, the loosest first. -/
def levels : List (List String) :=
  [["|"], ["&"], ["<<", ">>"], ["+", "-"], ["*", "/", "//", "%", "@"]]

/-- A comparison in front of tokens, and how many of them it takes. -/
def comparison? : List Token → Option (String × Nat)
  | .name "not" :: .name "in" :: _ => some ("not in", 2)
  | .name "is" :: .name "not" :: _ => some ("is not", 2)
  | .name "in" :: _ => some ("in", 1)
  | .name "is" :: _ => some ("is", 1)
  | .mark m :: _ =>
    if ["<", "<=", ">", ">=", "==", "!="].contains m then some (m, 1) else none
  | _ => none

/-- Several texts one after the other are one. -/
def texts : List Token → String × List Token
  | .text s :: rest =>
    let r := texts rest
    (s ++ r.1, r.2)
  | ts => ("", ts)

def codes : List Token → List Nat × List Token
  | .codes ns :: rest =>
    let r := codes rest
    (ns ++ r.1, r.2)
  | ts => ([], ts)

/-- Parentheses hold one phrase, unless a comma makes a tuple of them. -/
def grouped (items : List Phrase) (comma : Bool) : Option Phrase :=
  match items, comma with
  | [.spread _], false => none
  | [p], false => some p
  | items, _ => some (.tuple items)

/-- No argument by place follows one by name. -/
def areOrdered : List (Option String × Phrase) → Bool
  | [] => true
  | (some _, _) :: rest => rest.all fun a => a.1.isSome
  | (none, _) :: rest => areOrdered rest

/-! ## Parsing -/

mutual

/-- A phrase with everything that may stand in it; `fuel` has to reach the
number of steps, at most twenty for a token. -/
def parse : (fuel : Nat) → List Token → Option (Phrase × List Token)
  | 0, _ => none
  | fuel + 1, ts => do
    let (p, rest) ← parseEither fuel ts
    match rest with
    | .name "if" :: rest =>
      let (c, rest) ← parseEither fuel rest
      match rest with
      | .name "else" :: rest =>
        let (q, rest) ← parse fuel rest
        some (.choice c p q, rest)
      | _ => none
    | rest => some (p, rest)

def parseEither : (fuel : Nat) → List Token → Option (Phrase × List Token)
  | 0, _ => none
  | fuel + 1, ts => do
    let (p, rest) ← parseBoth fuel ts
    match rest with
    | .name "or" :: rest =>
      let (q, rest) ← parseEither fuel rest
      some (.connective false p q, rest)
    | rest => some (p, rest)

def parseBoth : (fuel : Nat) → List Token → Option (Phrase × List Token)
  | 0, _ => none
  | fuel + 1, ts => do
    let (p, rest) ← parseNot fuel ts
    match rest with
    | .name "and" :: rest =>
      let (q, rest) ← parseBoth fuel rest
      some (.connective true p q, rest)
    | rest => some (p, rest)

def parseNot : (fuel : Nat) → List Token → Option (Phrase × List Token)
  | 0, _ => none
  | fuel + 1, ts =>
    match ts with
    | .name "not" :: rest => do
      let (p, rest) ← parseNot fuel rest
      some (.unary "not" p, rest)
    | ts => do
      let (first, rest) ← parseLevel fuel 0 ts
      let (links, rest) ← parseLinks fuel rest
      some (if links.isEmpty then first else .chain first links, rest)

def parseLinks : (fuel : Nat) → List Token → Option (List (String × Phrase) × List Token)
  | 0, _ => none
  | fuel + 1, ts =>
    match comparison? ts with
    | some (op, k) => do
      let (p, rest) ← parseLevel fuel 0 (ts.drop k)
      let (links, rest) ← parseLinks fuel rest
      some ((op, p) :: links, rest)
    | none => some ([], ts)

/-- A phrase of the left-associative operators from a level on. -/
def parseLevel : (fuel level : Nat) → List Token → Option (Phrase × List Token)
  | 0, _, _ => none
  | fuel + 1, level, ts =>
    match levels[level]? with
    | some ops => do
      let (first, rest) ← parseLevel fuel (level + 1) ts
      parseRest fuel level ops first rest
    | none => parseSigned fuel ts

def parseRest : (fuel level : Nat) → List String → Phrase → List Token →
    Option (Phrase × List Token)
  | 0, _, _, _, _ => none
  | fuel + 1, level, ops, left, ts =>
    match ts with
    | .mark m :: rest =>
      if ops.contains m then do
        let (right, rest) ← parseLevel fuel (level + 1) rest
        parseRest fuel level ops (.binary m left right) rest
      else some (left, ts)
    | ts => some (left, ts)

/-- Signs in front of a power. -/
def parseSigned : (fuel : Nat) → List Token → Option (Phrase × List Token)
  | 0, _ => none
  | fuel + 1, ts =>
    match ts with
    | .mark m :: rest =>
      if m == "-" || m == "+" || m == "~" then do
        let (p, rest) ← parseSigned fuel rest
        some (.unary m p, rest)
      else parsePower fuel ts
    | ts => parsePower fuel ts

/-- A power; its exponent may have signs of its own. -/
def parsePower : (fuel : Nat) → List Token → Option (Phrase × List Token)
  | 0, _ => none
  | fuel + 1, ts => do
    let (base, rest) ← parseOperand fuel ts
    let (base, rest) ← parseTrailers fuel base rest
    match rest with
    | .mark "**" :: after =>
      let (exponent, rest) ← parseSigned fuel after
      some (.binary "**" base exponent, rest)
    | rest => some (base, rest)

def parseTrailers : (fuel : Nat) → Phrase → List Token → Option (Phrase × List Token)
  | 0, _, _ => none
  | fuel + 1, p, ts =>
    match ts with
    | .mark "." :: .name x :: rest =>
      if Notation.keywords.contains x then none else parseTrailers fuel (.member p x) rest
    | .mark "(" :: rest => do
      let (args, rest) ← parseArguments fuel rest
      if areOrdered args then parseTrailers fuel (.call p args) rest else none
    | .mark "[" :: rest => do
      let (items, comma, rest) ← parsePositions fuel rest
      match items with
      | [] => none
      | items =>
        let i ← grouped items comma
        parseTrailers fuel (.item p i) rest
    | ts => some (p, ts)

def parseOperand : (fuel : Nat) → List Token → Option (Phrase × List Token)
  | 0, _ => none
  | fuel + 1, ts =>
    match ts with
    | .number n :: rest => some (.number n, rest)
    | .rational q :: rest => some (.rational q, rest)
    | .symbol x :: rest => some (.symbol x, rest)
    | .function x :: rest => some (.function x, rest)
    | .text _ :: _ =>
      let t := texts ts
      some (.text t.1, t.2)
    | .codes _ :: _ =>
      let t := codes ts
      some (.list (t.1.map fun n => .number (.ofNat n)), t.2)
    | .name x :: rest =>
      if ["True", "False", "None"].contains x || !(Notation.keywords.contains x) then
        some (.name x, rest)
      else none
    | .mark "..." :: rest => some (.name "...", rest)
    | .mark "(" :: rest => do
      let (items, comma, rest) ← parseItems fuel ")" rest
      let p ← grouped items comma
      some (p, rest)
    | .mark "[" :: rest => do
      let (items, _, rest) ← parseItems fuel "]" rest
      some (.list items, rest)
    | .mark "\x7b" :: .mark "\x7d" :: rest => some (.table [], rest)
    | .mark "\x7b" :: rest =>
      match parseEntries fuel rest with
      | some (entries, rest) => some (.table entries, rest)
      | none => do
        let (items, _, rest) ← parseItems fuel "\x7d" rest
        some (.set items, rest)
    | _ => none

/-- Items up to a closing bracket, and whether a comma was among them. -/
def parseItems : (fuel : Nat) → (close : String) → List Token →
    Option (List Phrase × Bool × List Token)
  | 0, _, _ => none
  | fuel + 1, close, ts =>
    if ts.head? == some (.mark close) then some ([], false, ts.drop 1)
    else do
      let (p, rest) ← parseItem fuel ts
      match rest with
      | .mark "," :: rest =>
        let (items, _, rest) ← parseItems fuel close rest
        some (p :: items, true, rest)
      | .mark m :: rest => if m == close then some ([p], false, rest) else none
      | _ => none

def parseItem : (fuel : Nat) → List Token → Option (Phrase × List Token)
  | 0, _ => none
  | fuel + 1, ts =>
    match ts with
    | .mark "*" :: rest => do
      let (p, rest) ← parseLevel fuel 0 rest
      some (.spread p, rest)
    | ts => parse fuel ts

def parseArguments : (fuel : Nat) → List Token → Option (List (Option String × Phrase) × List Token)
  | 0, _ => none
  | fuel + 1, ts =>
    if ts.head? == some (.mark ")") then some ([], ts.drop 1)
    else do
      let (a, rest) ← match ts with
        | .name x :: .mark "=" :: rest =>
          if Notation.keywords.contains x then none
          else do
            let (p, rest) ← parse fuel rest
            some ((some x, p), rest)
        | ts => do
          let (p, rest) ← parseItem fuel ts
          some ((none, p), rest)
      match rest with
      | .mark "," :: rest =>
        let (args, rest) ← parseArguments fuel rest
        some (a :: args, rest)
      | .mark ")" :: rest => some ([a], rest)
      | _ => none

def parsePositions : (fuel : Nat) → List Token → Option (List Phrase × Bool × List Token)
  | 0, _ => none
  | fuel + 1, ts =>
    if ts.head? == some (.mark "]") then some ([], true, ts.drop 1)
    else do
      let (p, rest) ← parsePosition fuel ts
      match rest with
      | .mark "," :: rest =>
        let (items, _, rest) ← parsePositions fuel rest
        some (p :: items, true, rest)
      | .mark "]" :: rest => some ([p], false, rest)
      | _ => none

def parsePosition : (fuel : Nat) → List Token → Option (Phrase × List Token)
  | 0, _ => none
  | fuel + 1, ts => do
    let (first, rest) ← parseBound fuel ts
    match first, rest with
    | first, .mark ":" :: rest =>
      let (second, rest) ← parseBound fuel rest
      match rest with
      | .mark ":" :: rest =>
        let (third, rest) ← parseBound fuel rest
        some (.slice [first, second, third], rest)
      | rest => some (.slice [first, second], rest)
    | some p, rest => some (p, rest)
    | none, _ => none

def parseBound : (fuel : Nat) → List Token → Option (Option Phrase × List Token)
  | 0, _ => none
  | fuel + 1, ts =>
    match ts with
    | .mark m :: _ =>
      if [":", ",", "]"].contains m then some (none, ts)
      else (parse fuel ts).map fun p => (some p.1, p.2)
    | ts => (parse fuel ts).map fun p => (some p.1, p.2)

def parseEntries : (fuel : Nat) → List Token → Option (List (Phrase × Phrase) × List Token)
  | 0, _ => none
  | fuel + 1, ts =>
    if ts.head? == some (.mark "\x7d") then some ([], ts.drop 1)
    else do
      let (k, rest) ← parse fuel ts
      match rest with
      | .mark ":" :: rest =>
        let (v, rest) ← parse fuel rest
        match rest with
        | .mark "," :: rest =>
          let (entries, rest) ← parseEntries fuel rest
          some ((k, v) :: entries, rest)
        | .mark "\x7d" :: rest => some ([(k, v)], rest)
        | _ => none
      | _ => none

end

def isSpread : Phrase → Bool
  | .spread _ => true
  | _ => false

/-- The phrase that tokens spell; several with commas are a tuple, and none
of them may be spread. -/
def ofTokens? (ts : List Token) : Option Phrase := do
  let close := Token.mark "\n"
  if ts.contains close then none
  else
    let (items, comma, rest) ← parseItems (24 * ts.length + 48) "\n" (ts ++ [close])
    if items.isEmpty || !rest.isEmpty || items.any isSpread then none else grouped items comma

end Phrase

end Fluxion.Algebra
