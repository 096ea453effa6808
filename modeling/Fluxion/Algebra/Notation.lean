/-
What the notation of a formula adds to its tokens, step by step: a formula
that begins as an anonymous function is a call, names without a meaning
become symbols, digits in brackets behind a decimal repeat without end,
factorial signs become calls, and operands side by side are multiplied.

A name that can be called is no operand by itself: it has to be followed by
its arguments, whereas a name that cannot be called is multiplied by the
parentheses that follow it. A name behind a point is a member of what
stands in front of the point.
-/
import Fluxion.Algebra.Token

namespace Fluxion.Algebra.Notation

def keywords : List String :=
  ["False", "None", "True", "and", "as", "assert", "async", "await", "break", "class", "continue",
    "def", "del", "elif", "else", "except", "finally", "for", "from", "global", "if", "import",
    "in", "is", "lambda", "nonlocal", "not", "or", "pass", "raise", "return", "try", "while",
    "with", "yield"]

/-! ## Anonymous functions -/

/-- `lambda a, b: u` at the beginning is `Lambda((a, b), u)`; none of its
parameters may be starred. A comment at the end would hide the last
parenthesis. -/
def withLambda : List Token → Option (List Token)
  | .name "lambda" :: rest =>
    let isColon (t : Token) : Bool := t == .mark ":"
    let parameters := rest.takeWhile fun t => !isColon t
    let body := (rest.drop parameters.length).map fun t => if isColon t then .mark "," else t
    let isStarred := parameters.any fun t => t == .mark "*" || t == .mark "**"
    if rest.isEmpty || isStarred || rest.getLast? == some .gap then none
    else some ([.name "Lambda", .mark "(", .mark "("] ++ parameters ++ [.mark ")"] ++ body ++
      [.mark ")"])
  | ts => some ts

/-! ## Symbols -/

/-- Names without a meaning become symbols. A name keeps its meaning if it
has one, behind a point, and in front of the sign of a named argument;
`before` is the last token that was not kept as a name. -/
def withSymbols (known : String → Bool) : (before : Option Token) → List Token → List Token
  | _, [] => []
  | before, .name x :: rest =>
    let isMember := before == some (.mark ".")
    let isArgument := (before == some (.mark "(") || before == some (.mark ",")) &&
      rest.head? == some (.mark "=")
    if keywords.contains x || isMember || isArgument || known x then
      .name x :: withSymbols known before rest
    else
      (if rest.head? == some (.mark "(") then .function x else .symbol x) ::
        withSymbols known (some (.name x)) rest
  | _, t :: rest => t :: withSymbols known (some t) rest

/-! ## Repeating decimals -/

def barePoint : Literal := ⟨10, [0], some [], none, false⟩

def hold (held : List Token) (t : Token) : List Token :=
  match t with
  | .number n =>
    if held.isEmpty && n.isPointed then [t]
    else if n.isDigits && (held.length == 2 || held.length == 3) then held ++ [t]
    else []
  | .mark "[" => if held.length == 1 then held ++ [t] else []
  | .mark "]" => if 3 ≤ held.length then held ++ [t] else []
  | .mark "." => if held.isEmpty then [.number barePoint] else []
  | _ => []

/-- `w.f[r]`: the digits `r` behind `w.f` repeat without end. They are not
all zero, and the whole part has no leading zeros. -/
def repeating? (n : Literal) (repeated : List Nat) : Option Rat :=
  let fraction := n.fraction.getD []
  let shift := Nat.pow 10 fraction.length
  let r := Literal.digitsValue 10 repeated
  if r == 0 || !(Literal.isWritable ⟨10, n.whole, none, none, false⟩) then none
  else
    let whole := Rat.ofInt (Literal.digitsValue 10 n.whole : Nat)
    let part := mkRat (Literal.digitsValue 10 fraction : Nat) shift
    let tail := mkRat r ((Nat.pow 10 repeated.length - 1) * shift)
    some (Rat.add (Rat.add whole part) tail)

/-- The tokens without repeating decimals; those before are kept in
reverse. -/
def withRepeating : (held done : List Token) → List Token → Option (List Token)
  | _, done, [] => some done.reverse
  | held, done, t :: rest =>
    let held := hold held t
    match held, held.getLast? with
    | .number n :: _ :: digits, some (.mark "]") => do
      let repeated := digits.flatMap fun d => match d with
        | .number m => m.whole
        | _ => []
      let q ← repeating? n repeated
      withRepeating [] ([.mark ")", .rational q, .mark "("] ++ done.drop (held.length - 1)) rest
    | _, _ => withRepeating held (t :: done) rest

/-- Numbers on the imaginary axis as products; a number with leading zeros
is refused. -/
def withImaginary : List Token → Option (List Token)
  | [] => some []
  | .number n :: rest => do
    let ts ← withImaginary rest
    let plain : Token := .number { n with imaginary := false }
    if !n.isWritable then none
    else if n.imaginary then some (plain :: .mark "*" :: .name "I" :: ts)
    else some (plain :: ts)
  | t :: rest => (withImaginary rest).map (t :: ·)

/-! ## Factorials -/

def isUnit : Token → Bool
  | .number _ | .symbol _ | .function _ | .rational _ => true
  | _ => false

def isName : Token → Bool
  | .name _ => true
  | _ => false

/-- How many of the last tokens, given in reverse, form one operand: a
unit, a word, or parentheses, with the name in front of these. -/
def operandLength : (depth : Int) → List Token → Option Nat
  | _, [] => none
  | depth, t :: rest =>
    let depth := if t == .mark ")" then depth + 1 else if t == .mark "(" then depth - 1 else depth
    if depth == 0 then
      some (if !isUnit t && (rest.head?.any isName) then 2 else 1)
    else (operandLength depth rest).map (· + 1)

def applied (function : String) (done : List Token) : Option (List Token) :=
  match done with
  | [] => none
  | .mark "(" :: _ => none
  | done =>
    match operandLength 0 done with
    | none => some done
    | some k =>
      some (.mark ")" :: done.take k ++ [.mark "(", .name function] ++ done.drop k)

def settle (signs : Nat) (done : List Token) : Option (List Token) :=
  match signs with
  | 0 => some done
  | 1 => applied "factorial" done
  | 2 => applied "factorial2" done
  | _ => none

/-- A stray character among marks; a blank is only a gap. -/
def strayMark (c : Char) : Token :=
  if Token.isSpace c then .gap else .mark (String.ofList [c])

/-- Factorial signs as calls; `signs` of them stand behind the tokens done,
which are kept in reverse. Another stray character makes them void. -/
def withFactorials : (signs : Nat) → (done : List Token) → List Token → Option (List Token)
  | signs, done, [] => (settle signs done).map List.reverse
  | signs, done, .stray c :: rest =>
    if c == '!' then withFactorials (signs + 1) done rest
    else withFactorials 0 (strayMark c :: done) rest
  | signs, done, t :: rest =>
    (settle signs done).bind fun done => withFactorials 0 (t :: done) rest

/-! ## Products without a sign -/

/-- Whether every closing parenthesis has an opening one before it. -/
def areBalanced : Nat → List Token → Bool
  | _, [] => true
  | depth, .mark "(" :: rest => areBalanced (depth + 1) rest
  | 0, .mark ")" :: _ => false
  | depth + 1, .mark ")" :: rest => areBalanced depth rest
  | depth, _ :: rest => areBalanced depth rest

/-- Whether every opening parenthesis is closed. -/
def areClosed (ts : List Token) : Bool :=
  ts.countP (· == .mark "(") == ts.countP (· == .mark ")")

def afterGroup : (depth : Nat) → List Token → List Token
  | _, [] => []
  | depth, .mark "(" :: rest => afterGroup (depth + 1) rest
  | depth, .mark ")" :: rest => if depth ≤ 1 then rest else afterGroup (depth - 1) rest
  | depth, _ :: rest => afterGroup depth rest

def endsOperand (callable : String → Bool) : Token → Bool
  | .name x => !callable x
  | .mark m => m == ")"
  | t => isUnit t

def beginsOperand : Token → Bool
  | .mark m => m == "("
  | t => isUnit t || isName t

/-- Puts in the sign of every product that has none. A function without a
meaning is a symbol times the parentheses behind it. `member` says that the
first token is a name behind a point, which takes no part in a product. -/
def withProducts (callable : String → Bool) : (member : Bool) → List Token → List Token
  | _, [] => []
  | _, [t] => [t]
  | true, t :: rest => t :: withProducts callable false rest
  | false, t :: next :: rest =>
    let ts := next :: rest
    let opens := next == .mark "("
    match t, next with
    | .mark ".", .name x =>
      let isCall := callable x && rest.head? == some (.mark "(")
      t :: withProducts callable (!isCall) ts
    | .name "Function", _ =>
      let t := if opens && (afterGroup 0 ts).head? == some (.mark "(") then .name "Symbol" else t
      t :: withProducts callable false ts
    | .function x, _ =>
      if opens then .symbol x :: .mark "*" :: withProducts callable false ts
      else if beginsOperand next then t :: .mark "*" :: withProducts callable false ts
      else t :: withProducts callable false ts
    | t, next =>
      if endsOperand callable t && beginsOperand next then
        t :: .mark "*" :: withProducts callable false ts
      else t :: withProducts callable false ts

/-! ## Depth -/

/-- How deep brackets nest behind a number of open ones. A number or a
symbol takes a level of its own, and a repeating decimal two. -/
def depthFrom : (opened : Nat) → List Token → Nat
  | opened, [] => opened
  | opened, t :: rest =>
    let isOpening := t == .mark "(" || t == .mark "[" || t == .mark "\x7b"
    let isClosing := t == .mark ")" || t == .mark "]" || t == .mark "\x7d"
    let here := match t with
      | .number _ | .symbol _ | .function _ => opened + 1
      | .rational _ => opened + 2
      | _ => opened
    let next := if isOpening then opened + 1 else if isClosing then opened - 1 else opened
    Nat.max here (depthFrom next rest)

def isShallow (ts : List Token) : Bool := depthFrom 0 ts ≤ 200

/-! ## All steps -/

/-- The two signs of a power are one. -/
def withPowers (ts : List Token) : List Token :=
  ts.map fun t => if t == .mark "^" then .mark "**" else t

/-- Marks with nothing between them are taken together, so that two stars
are the sign of a power; `held` are the characters of the marks before.
Gaps keep marks apart and are left out. -/
def joined : (held : List Char) → List Token → List Token
  | held, [] => Token.marksOf held.length held
  | held, .mark m :: rest => joined (held ++ m.toList) rest
  | held, .gap :: rest => Token.marksOf held.length held ++ joined [] rest
  | held, t :: rest => Token.marksOf held.length held ++ t :: joined [] rest

def withoutOuterBreaks (ts : List Token) : List Token :=
  let isBreak (t : Token) : Bool := t == .mark "\n"
  ((ts.dropWhile isBreak).reverse.dropWhile isBreak).reverse

def finished (ts : List Token) : List Token := withoutOuterBreaks (joined [] (withPowers ts))

/-- The tokens in the notation that has a sign for every product. -/
def plain? (known : String → Bool) (ts : List Token) : Option (List Token) := do
  let ts ← withLambda ts
  let ts ← withRepeating [] [] (withSymbols known none ts)
  let ts ← withImaginary ts
  withFactorials 0 [] ts

end Fluxion.Algebra.Notation
