/-
The text of a tree. Every operation stands in parentheses with single
blanks around its symbol, a function is applied with parentheses, and a
negative literal is parenthesised where it is an operand: `(x ^ (-1))`.

`compact` is the text used to recognise two trees as the same up to
spelling: blanks are dropped and `(v^1)` is written `v`.
-/
import Fluxion.Tree

namespace Fluxion

/-- Numbers with a spelling: `text` is how an expression shows one, `plain`
tells any two apart, and `read?` takes a text back. -/
class Numeral (α : Type) [Scalar α] where
  text : α → String
  plain : α → String
  read? : String → Option α

namespace Tree

variable {α : Type} [Scalar α]

def isNegativeLiteral : Tree α → Bool
  | .const a => Scalar.lt a Scalar.zero
  | _ => false

/-- The text `s` of the operand `t`, set in parentheses when `t` is a
negative literal. -/
def guarded (t : Tree α) (s : String) : String :=
  if t.isNegativeLiteral then "(" ++ s ++ ")" else s

variable [Numeral α]

def text : Tree α → String
  | .var x => x
  | .const a => Numeral.text a
  | .binary op l r => "(" ++ guarded l l.text ++ " " ++ op.symbol ++ " " ++ guarded r r.text ++ ")"
  | .unary .neg u => "(-" ++ u.text ++ ")"
  | .unary op u => op.symbol ++ "(" ++ u.text ++ ")"
  | .relate rel l r =>
    "(" ++ guarded l l.text ++ " " ++ rel.symbol ++ " " ++ guarded r r.text ++ ")"
  | .branch c t f => "(" ++ c.text ++ " ? " ++ t.text ++ " : " ++ f.text ++ ")"

/-- The text of a node with its kind, as an inspector shows it. -/
def description (t : Tree α) : String :=
  "<" ++ t.kind.title ++ " " ++ t.text ++ ">"

/-- Replaces every occurrence of `pat` from the left, without overlap;
`skip` characters of a match remain to be passed over. -/
def replaceFrom (pat new : List Char) : Nat → List Char → List Char
  | _, [] => []
  | skip + 1, _ :: cs => replaceFrom pat new skip cs
  | 0, c :: cs =>
    if pat.isPrefixOf (c :: cs) then new ++ replaceFrom pat new (pat.length - 1) cs
    else c :: replaceFrom pat new 0 cs

/-- The text without blanks, `(v^1)` written as `v`. -/
def compact (v : String) (t : Tree α) : String :=
  let packed := t.text.toList.filter fun c => c ≠ ' '
  String.ofList (replaceFrom ("(" ++ v ++ "^1)").toList v.toList 0 packed)

end Tree

end Fluxion
