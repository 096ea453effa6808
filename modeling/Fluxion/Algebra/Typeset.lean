/-
Forms as typeset mathematics: fractions above a line, roots under a root
sign, powers of functions at the function's name, and sums and products in
the order in which they are written.
-/
import Fluxion.Algebra.Conversion
import Fluxion.Text.Symbol

namespace Fluxion.Algebra

/-! ## Numbers -/

namespace Binary

/-- The decimal exponent of the first digit of `num / den`, near a guess;
`fuel` has to reach the distance from it. -/
def magnitude (num den : Nat) : (fuel : Nat) → Int → Int
  | 0, k => k
  | fuel + 1, k =>
    -- 10^k ≤ num / den < 10^(k+1)
    let below := if 0 ≤ k then num < den * Nat.pow 10 k.toNat
      else num * Nat.pow 10 (-k).toNat < den
    if below then magnitude num den fuel (k - 1)
    else
      let k' := k + 1
      let above := if 0 ≤ k' then den * Nat.pow 10 k'.toNat ≤ num
        else den ≤ num * Nat.pow 10 (-k').toNat
      if above then magnitude num den fuel k' else k

/-- Eighteen digits cut off and rounded to fifteen, a five upwards, and the
exponent of the first. -/
def digits (x : Binary) : Nat × Int :=
  let r := x.abs.toRat
  let num := r.num.natAbs
  let guess : Int := ((num.log2 : Int) - (r.den.log2 : Int)) * 3 / 10
  let k := magnitude num r.den 400 guess
  let scale := 17 - k
  let cutOff := if 0 ≤ scale then num * Nat.pow 10 scale.toNat / r.den
    else num / (r.den * Nat.pow 10 (-scale).toNat)
  let n := cutOff / 1000 + (if 500 ≤ cutOff % 1000 then 1 else 0)
  if n == Nat.pow 10 15 then (Nat.pow 10 14, k + 1) else (n, k)

def withoutZeros (cs : List Char) : List Char := (cs.reverse.dropWhile (· == '0')).reverse

/-- Digits with a point after the first `whole` of them, and at least one
digit after the point. -/
def pointed (cs : List Char) (whole : Nat) : String :=
  let rest := withoutZeros (cs.drop whole)
  String.ofList (cs.take whole ++ '.' :: (if rest.isEmpty then ['0'] else rest))

/-- A floating point number: positional from a ten thousandth to fifteen
digits before the point. -/
def typeset (x : Binary) : String :=
  let sign := if x.isNegative then "-" else ""
  if x.isZero then "0"
  else
    let d := x.digits
    let cs := d.1.repr.toList
    if -5 < d.2 && d.2 < 15 then
      if d.2 < 0 then
        sign ++ pointed (List.replicate (-d.2).toNat '0' ++ cs) 1
      else sign ++ pointed cs (d.2.toNat + 1)
    else sign ++ pointed cs 1 ++ " \\cdot 10^\x7b" ++ d.2.repr ++ "\x7d"

end Binary

namespace Typeset

def braced (s : String) : String := "\x7b" ++ s ++ "\x7d"
def bracketed (s : String) : String := "\\left(" ++ s ++ "\\right)"

def bracketedArgument (s : String) : String := "\\left(" ++ s ++ " \\right)"

def stacked (n d : String) : String := "\\frac" ++ braced n ++ braced d
def raised (b e : String) : String := b ++ "^" ++ braced e

def number (a : Number) : String :=
  match a with
  | .exact q =>
    if q.den == 1 then q.num.repr
    else (if q.num < 0 then "- " else "") ++ stacked q.num.natAbs.repr q.den.repr
  | .approximate x => x.typeset
  | .infinite negative => if negative then "-\\infty" else "\\infty"
  | .undefined => "\\text\x7bNaN\x7d"

def constant : Constant → String
  | .pi => "\\pi"
  | .e => "e"
  | .goldenRatio => "\\phi"
  | .eulerGamma => "\\gamma"
  | .catalan => "G"
  | .tribonacci => "\\text\x7bTribonacciConstant\x7d"

/-- Functions with a command of their own. -/
def commands : List String :=
  ["sin", "cos", "tan", "sec", "csc", "cot", "log", "sinh", "cosh", "tanh"]

def functionName (name : String) : String :=
  if commands.contains name then "\\" ++ name
  else if name.length == 1 then name
  else "\\operatorname" ++ braced name

def relation : Relation → String
  | .lt => "<"
  | .le => "\\leq"
  | .gt => ">"
  | .ge => "\\geq"
  | .eq => "="
  | .ne => "\\neq"

/-! ## Brackets -/

/-- How tightly a form holds together. -/
def strength (u : Form) : Nat :=
  match u with
  | .number a =>
    if a.isNegative then 40
    else
      match a with
      | .exact q => if q.den == 1 then 1000 else 50
      | _ => 1000
  | .relate _ _ _ => 35
  | .sum _ => 40
  | .product _ => 50
  | .power _ _ => 60
  | .call _ _ | .foreign _ _ | .cases _ _ => 70
  | _ => 1000

def needsTermBrackets : Form → Bool
  | .relate _ _ _ | .sum _ => true
  | _ => false

def needsFactorBrackets (first : Bool) (u : Form) : Bool :=
  match u with
  | .product _ => !first && u.leansNegative
  | .cases _ _ => true
  | u => strength u < 50

def endsInDigit (s : String) : Bool :=
  match s.toList.reverse.dropWhile fun c => c == '\x7d' || c == ' ' with
  | c :: _ => c.isDigit
  | [] => false

def startsWithNumber (s : String) : Bool :=
  match s.toList with
  | '\\' :: 'f' :: 'r' :: 'a' :: 'c' :: '\x7b' :: rest =>
    let digits := rest.takeWhile Char.isDigit
    let below := (rest.drop digits.length).drop 2
    !digits.isEmpty && (rest.drop digits.length).take 2 == ['\x7d', '\x7b'] &&
      (below.head?.map Char.isDigit).getD false &&
      ((below.dropWhile Char.isDigit).head? == some '\x7d')
  | c :: _ => c.isDigit
  | [] => false

/-- Factors side by side, with a sign between two numbers. -/
def sideBySide (first : String) (rest : List String) : String :=
  let step (acc : String × String) (s : String) : String × String :=
    let gap := if endsInDigit acc.2 && startsWithNumber s then " \\cdot " else " "
    (acc.1 ++ gap ++ s, s)
  (rest.foldl step (first, first)).1

/-! ## Fractions -/

/-- The factors above and below the line of a fraction as it is written;
an exponent with symbols stays where it is. -/
def parts (u : Form) : Result (List Form × List Form) := do
  let each ← u.factors.mapM fun f =>
    let ofPower (b e : Form) : Result (List Form × List Form) := do
      if e.isNumeric && e.isNegative then
        if e == Form.minusOne then return ([], [b])
        else return ([], [← rules.power b (← rules.neg e)])
      else return ([f], [])
    match f with
    | .power b e => ofPower b e
    | .call .exp e => ofPower (.constant .e) e
    | .number (.exact q) =>
      if q.den == 1 then .ok ([f], [])
      else .ok (if q.num == 1 then [] else [Form.int q.num], [Form.int q.den])
    | f => .ok ([f], [])
  return (each.flatMap Prod.fst, each.flatMap Prod.snd)

/-! ## Forms -/

mutual

/-- A form as it is written; `fuel` has to reach its depth. -/
def write : (fuel : Nat) → Form → Result String
  | 0, _ => .ok ""
  | fuel + 1, u =>
    match u with
    | .number a => .ok (number a)
    | .unsigned => .ok "\\tilde\x7b\\infty\x7d"
    | .constant c => .ok (constant c)
    | .imaginary => .ok "i"
    | .symbol x => .ok (Text.Symbol.typeset x)
    | .truth b => .ok (if b then "\\text\x7bTrue\x7d" else "\\text\x7bFalse\x7d")
    | .sum _ => writeTerms fuel true u.writtenTerms
    | .product us =>
      if us.head? == some Form.one || us.tail.any Form.isNumber then writeFactors fuel us
      else writeProduct fuel u
    | .power b e => writePower fuel b e
    | .call .exp v => do return raised "e" (← write fuel v)
    | .call op v => do
      return functionName (Form.functionName op) ++ braced (bracketedArgument (← write fuel v))
    | .foreign name us => do
      let args ← us.mapM (write fuel)
      return functionName name ++ braced (bracketedArgument (",".intercalate args))
    | .relate rel l r => do
      return (← write fuel l) ++ " " ++ relation rel ++ " " ++ (← write fuel r)
    | .cases vs cs => do
      let rows ← (vs.zip cs).mapM fun p => do
        let v ← write fuel p.1
        if p.2 == .truth true then return v ++ " & \\text\x7botherwise\x7d"
        else return v ++ " & \\text\x7bfor\x7d\\: " ++ (← write fuel p.2)
      return "\\begin\x7bcases\x7d " ++ " \\\\".intercalate rows ++ " \\end\x7bcases\x7d"

def writeTerms : (fuel : Nat) → (first : Bool) → List Form → Result String
  | 0, _, _ => .ok ""
  | _, _, [] => .ok ""
  | fuel + 1, first, u :: us => do
    let negative := match u with
      | .number a | .product (.number a :: _) => a.isNegative
      | _ => false
    let v ← if !first && negative then rules.neg u else pure u
    let s ← write fuel v
    let s := if needsTermBrackets v then bracketed s else s
    let rest ← writeTerms fuel false us
    return (if first then "" else if negative then " - " else " + ") ++ s ++ rest

def writeFactors : (fuel : Nat) → List Form → Result String
  | 0, _ => .ok ""
  | fuel + 1, us => do
    let texts ← us.zipIdx.mapM fun p => do
      let s ← write fuel p.1
      return if needsFactorBrackets (p.2 == 0) p.1 then bracketed s else s
    match texts with
    | [] => return "1"
    | first :: rest => return sideBySide first rest

/-- Factors in the order in which they are written; a single one as it
is. -/
def writeSide : (fuel : Nat) → List Form → Result String
  | 0, _ => .ok ""
  | fuel + 1, us =>
    match us with
    | [] => .ok "1"
    | [u] => write fuel u
    | us => writeFactors fuel (Form.product us).writtenFactors

/-- A product or a power below a line. -/
def writeProduct : (fuel : Nat) → Form → Result String
  | 0, _ => .ok ""
  | fuel + 1, u => do
    let negative := u.leansNegative
    let v ← if negative then rules.neg u else pure u
    let sign := if negative then "- " else ""
    let p ← parts v
    if p.2.isEmpty then return sign ++ (← writeSide fuel v.factors)
    else return sign ++ stacked (← writeSide fuel p.1) (← writeSide fuel p.2)

def writePower : (fuel : Nat) → Form → Form → Result String
  | 0, _, _ => .ok ""
  | fuel + 1, b, e =>
    match e with
    | .number (.exact q) =>
      if q.num.natAbs == 1 && 1 < q.den then do
        let s ← write fuel b
        let root := (if q.den == 2 then "\\sqrt" else "\\sqrt[" ++ q.den.repr ++ "]") ++ braced s
        return if q.num < 0 then stacked "1" root else root
      else if q.num < 0 then writeProduct fuel (.power b e)
      else writeRaised fuel b e
    | e => writeRaised fuel b e

/-- A base with its exponent: the exponent of a function stands at its
name. -/
def writeRaised : (fuel : Nat) → Form → Form → Result String
  | 0, _, _ => .ok ""
  | fuel + 1, b, e => do
    let x ← write fuel e
    match b with
    | .call .exp _ => return raised (bracketed (← write fuel b)) x
    | .call .ln _ => return raised (← write fuel b) x
    | .call op v =>
      return raised (functionName (Form.functionName op)) x ++
        braced (bracketedArgument (← write fuel v))
    | b =>
      let s ← write fuel b
      let s := if strength b ≤ 60 then bracketed s else s
      match b with
      | .symbol _ => return raised (if s.contains '^' then braced s else s) x
      | .number (.approximate _) => return raised (braced s) x
      | _ => return raised s x

end

end Typeset

def Form.typeset (u : Form) : Result String := Typeset.write (8 * u.size + 16) u

end Fluxion.Algebra

namespace Fluxion

/-- The algebraic form of a tree as typeset mathematics. -/
def Tree.typeset (t : Tree Float) : Algebra.Result String := do (← t.toForm).typeset

end Fluxion
