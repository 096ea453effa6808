/-
Operators, comparisons and positions. Forms are combined by the rules of
algebra; whole numbers also bit by bit, conditions by connectives. Texts
and lists are joined and repeated, and their items are found by position,
from the end where it is negative.
-/
import Fluxion.Algebra.Reading

namespace Fluxion.Algebra.Reading

/-! ## Operators on forms -/

/-- Conditions, and symbols that may stand for one. -/
def isCondition (u : Form) : Bool :=
  u.isSymbol || (match u with
    | .foreign f _ => ["And", "Or", "Not", "Xor", "Implies", "Equivalent", "ITE"].contains f
    | u => u.isLogical)

/-- The quotient of a whole number by another number, cut to a whole number
below; an exact quotient below zero is cut once more, unless the divisor is
inexact. -/
def wholeQuotient (n : Int) (v : Form) : Result Form :=
  match v with
  | .number (.exact d) =>
    if d.num == 0 then .error .zeroDivision
    else
      let q := Rat.div (Rat.ofInt n) d
      if d.den == 1 then .ok (Form.int q.floor)
      else .ok (Form.int (if 0 ≤ q.num then q.floor else if q.den == 1 then q.num - 1 else q.floor))
  | .number (.approximate x) =>
    if x.isZero then .error .zeroDivision
    else .ok (Form.int (Rat.div (Rat.ofInt n) x.toRat).floor)
  | v => do Library.special "floor" [← rules.div (Form.int n) v]

def cutQuotient (u v : Form) : Result Form :=
  match u.int? with
  | some n => wholeQuotient n v
  | none => do Library.special "floor" [← rules.div u v]

/-- A shift by a number of bits, which is not negative. -/
def shifted (left : Bool) (n k : Int) : Result Form :=
  if k < 0 then .error .outsideDomain
  else if left then .ok (Form.int (n * (Nat.pow 2 k.toNat : Nat)))
  else .ok (Form.int (Int.fdiv n (Nat.pow 2 k.toNat : Nat)))

def bitwise (op : String) (u v : Form) : Result Form :=
  match u.int?, v.int? with
  | some m, some n =>
    match op with
    | "&" => .ok (Form.int (Counting.bitwise Nat.land m n))
    | "|" => .ok (Form.int (Counting.bitwise Nat.lor m n))
    | "<<" => shifted true m n
    | _ => shifted false m n
  | _, _ =>
    if isCondition u && isCondition v then
      match op with
      | "&" => .ok (Library.connected "And" true [u, v])
      | "|" => .ok (Library.connected "Or" false [u, v])
      | "<<" => Library.apply "Implies" [v, u]
      | _ => Library.apply "Implies" [u, v]
    else .error .mixedLogic

def arithmetic (op : String) (u v : Form) : Result Form :=
  if !(Library.isArithmetic u) || !(Library.isArithmetic v) then .error .mixedLogic
  else
    match op with
    | "+" => rules.add u v
    | "-" => rules.sub u v
    | "*" => rules.mul u v
    | "/" => rules.div u v
    | "**" => rules.power u v
    | "//" => cutQuotient u v
    | "%" => Library.remainder u v
    | _ => .error .mixedLogic

def combinedForms (op : String) (u v : Form) : Result Form :=
  if ["&", "|", "<<", ">>"].contains op then bitwise op u v else arithmetic op u v

/-! ## Operators on all readings -/

/-- Truth values among whole numbers count as one and zero. -/
def withFlags (op : String) (a b : Reading) : Result Reading :=
  match a, b with
  | .flag x, .flag y =>
    match op with
    | "&" => .ok (.flag (x && y))
    | "|" => .ok (.flag (x || y))
    | _ => numbers
  | _, _ => if ["**", "/"].contains op then .error .mixedLogic else numbers
where
  numbers : Result Reading :=
    match a.whole?, b.whole? with
    | some m, some n => Reading.form <$> combinedForms op (Form.int m) (Form.int n)
    | _, _ => .error .mixedLogic

/-- Items repeated a number of times, as long as they can be held. -/
def repeated {β : Type} (n : Int) (items : List β) : Result (List β) :=
  if Nat.pow 2 63 ≤ n.natAbs || Nat.pow 2 32 ≤ n.toNat * items.length then .error .integerTooLarge
  else .ok (List.replicate n.toNat items).flatten

def combine (op : String) (a b : Reading) : Result Reading :=
  match op, a, b with
  | op, .form u, .form v => Reading.form <$> combinedForms op u v
  | "+", .text s, .text t => .ok (.text (s ++ t))
  | "+", .list xs, .list ys => .ok (.list (xs ++ ys))
  | "+", .tuple xs, .tuple ys => .ok (.tuple (xs ++ ys))
  | "|", .set xs, .set ys => .ok (.set (xs ++ ys))
  | "&", .set xs, .set ys => .ok (.set (xs.filter fun x => ys.any (same x)))
  | "-", .set xs, .set ys => .ok (.set (xs.filter fun x => !(ys.any (same x))))
  | "*", a, b =>
    match a, b, a.whole?, b.whole? with
    | .text s, _, _, some n | _, .text s, some n, _ => do
      return .text (String.ofList (← repeated n s.toList))
    | .list xs, _, _, some n | _, .list xs, some n, _ => do return .list (← repeated n xs)
    | .tuple xs, _, _, some n | _, .tuple xs, some n, _ => do return .tuple (← repeated n xs)
    | a, b, _, _ => withFlags op a b
  | op, a, b => withFlags op a b

def signed (op : String) (a : Reading) : Result Reading :=
  match op, a with
  | "not", a => do return .flag !(← a.isTrue)
  | "~", .form u =>
    match u.int? with
    | some n => .ok (.form (Form.int (-n - 1)))
    | none => if isCondition u then .ok (.form u.opposite) else .error .mixedLogic
  | "~", .flag b => .ok (.form (Form.int (if b then -2 else -1)))
  | "-", .flag b => .ok (.form (Form.int (if b then -1 else 0)))
  | "+", .flag b => .ok (.form (Form.int (if b then 1 else 0)))
  | op, .form u =>
    if !(Library.isArithmetic u) then .error .mixedLogic
    else if op == "-" then Reading.form <$> rules.neg u
    else .ok (.form u)
  | _, _ => .error .mixedLogic

/-! ## Comparisons -/

def textOrder (s t : String) : Ordering := Form.compareText s t

def contains (a b : Reading) : Result Bool :=
  match a, b with
  | .text s, .text t =>
    .ok ((List.range (t.length + 1)).any fun k => s.toList.isPrefixOf (t.toList.drop k))
  | _, .text _ => .error .mixedLogic
  | a, b =>
    match b.items? with
    | some items => .ok (items.any (same a))
    | none => .error .mixedLogic

/-- A comparison. Equality asks whether two readings are written alike. -/
def compared (op : String) (a b : Reading) : Result Reading :=
  match op, a, b with
  | "==", a, b | "is", a, b => .ok (.flag (same a b))
  | "!=", a, b | "is not", a, b => .ok (.flag !(same a b))
  | "in", a, b => do return .flag (← contains a b)
  | "not in", a, b => do return .flag !(← contains a b)
  | op, .form u, .form v =>
    match Relation.ofSymbol? op with
    | some rel => Reading.form <$> Form.ordered rel u v
    | none => .error .mixedLogic
  | op, .text s, .text t =>
    match Relation.ofSymbol? op with
    | some rel => .ok (.flag (Form.holds rel (textOrder s t)))
    | none => .error .mixedLogic
  | _, _, _ => .error .mixedLogic

/-! ## Positions -/

/-- The place of a position in a list of a length; a negative one counts
from the end. -/
def place? (length : Nat) (i : Int) : Option Nat :=
  let k := if i < 0 then i + length else i
  if 0 ≤ k && k < length then some k.toNat else none

def itemAt {β : Type} (items : List β) (i : Int) : Result β :=
  match (place? items.length i).bind fun k => items[k]? with
  | some a => .ok a
  | none => .error .missingItem

def clamped (length : Nat) (low high i : Int) : Int :=
  let k := if i < 0 then i + length else i
  if k < low then low else if high < k then high else k

/-- Items from a start to an end, a step apart; `fuel` has to reach their
number. -/
def walk {β : Type} (items : List β) (stop step : Int) : (fuel : Nat) → Int → List β
  | 0, _ => []
  | fuel + 1, i =>
    if (0 < step && stop ≤ i) || (step < 0 && i ≤ stop) then []
    else
      match items[i.toNat]? with
      | some a => a :: walk items stop step fuel (i + step)
      | none => []

def part {β : Type} (bounds : List Reading) (items : List β) : Result (List β) := do
  let bound (k : Nat) : Result (Option Int) :=
    match bounds[k]?.getD .nothing with
    | .nothing => .ok none
    | a =>
      match a.whole? with
      | some n => .ok (some n)
      | none => .error .mixedLogic
  let n := items.length
  let step := (← bound 2).getD 1
  let start ← bound 0
  let stop ← bound 1
  if step == 0 then throw .outsideDomain
  else if 0 < step then
    let i := clamped n 0 n (start.getD 0)
    let j := clamped n 0 n (stop.getD n)
    return walk items j step (n + 1) i
  else
    let i := match start with
      | some k => clamped n (-1) (n - 1) k
      | none => (n : Int) - 1
    let j := match stop with
      | some k => clamped n (-1) (n - 1) k
      | none => -1
    return walk items j step (n + 1) i

def lookup? (key : Reading) : List Reading → List Reading → Option Reading
  | k :: ks, v :: vs => if same k key then some v else lookup? key ks vs
  | _, _ => none

def rows? : Form → Option (List (List Form))
  | .foreign "Matrix" rows => rows.mapM fun r => match r with
    | .foreign "Tuple" us => some us
    | _ => none
  | _ => none

def item (owner position : Reading) : Result Reading :=
  match owner, position with
  | .list xs, .slice bs => Reading.list <$> part bs xs
  | .tuple xs, .slice bs => Reading.tuple <$> part bs xs
  | .text s, .slice bs => do return .text (String.ofList (← part bs s.toList))
  | .table ks vs, key =>
    match lookup? key ks vs with
    | some v => .ok v
    | none => .error .missingKey
  | .form (.foreign "Matrix" rs), position =>
    match rows? (.foreign "Matrix" rs), position with
    | some rows, .tuple [i, j] =>
      match i.whole?, j.whole? with
      | some i, some j => do return .form (← itemAt (← itemAt rows i) j)
      | _, _ => .error .mixedLogic
    | some rows, i =>
      match i.whole? with
      | some i => do return .form (← itemAt rows.flatten i)
      | none => .error .mixedLogic
    | none, _ => .error .mixedLogic
  | .set _, _ => .error .mixedLogic
  | owner, position =>
    match owner.items?, position.whole? with
    | some items, some i => itemAt items i
    | _, _ => .error .mixedLogic

end Fluxion.Algebra.Reading
