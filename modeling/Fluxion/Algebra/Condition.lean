/-
Comparisons and choices between forms. A comparison is decided where both
sides are numbers, or, for equality, where their difference is; a choice
drops the conditions that cannot hold or cannot be reached, and one that is
left with a single value is that value.
-/
import Fluxion.Algebra.Rules

namespace Fluxion.Algebra

/-! ## Comparisons -/

namespace Form

def holds (rel : Relation) (o : Ordering) : Bool :=
  match rel with
  | .lt => o == .lt
  | .le => o != .gt
  | .gt => o == .gt
  | .ge => o != .lt
  | .eq => o == .eq
  | .ne => o != .eq

def realOrder? (l r : Form) : Option Ordering :=
  match l, r with
  | .number a, .number b =>
    some (if a.lt b then .lt else if b.lt a then .gt else .eq)
  | l, r =>
    let value (u : Form) : Option Float :=
      match u with
      | .number a => some a.toFloat
      | u => u.realValue?
    match value l, value r with
    | some x, some y => some (if x < y then .lt else if y < x then .gt else .eq)
    | _, _ => none

def isUnordered (u : Form) : Bool := u == undefined || u.real? == some false || u.isLogical

/-- An inequality; what is not real has no order. -/
def ordered (rel : Relation) (l r : Form) : Result Form :=
  if l.isUnordered || r.isUnordered then .error .mixedLogic
  else
    match realOrder? l r with
    | some o => .ok (.truth (holds rel o))
    | none => .ok (.relate rel l r)

def equal? (l r : Form) : Result (Option Bool) :=
  if l == undefined || r == undefined then .ok (some false)
  else if l == r then .ok (some true)
  else
    let isSymbol (u : Form) : Bool := match u with | .symbol _ => true | _ => false
    if l.isLogical || r.isLogical then
      match l, r with
      | .truth _, .truth _ => .ok (some false)
      | l, r =>
        if l.isLogical == r.isLogical || isSymbol l || isSymbol r then .ok none
        else .ok (some false)
    else do
      let d ← rules.sub l r
      if d.isZero then return some true
      else if d.isInfinite || d.names.isEmpty then
        match d.constantValue? with
        | some z => return some (z.norm < 1e-14)
        | none => return if l.names.isEmpty && r.names.isEmpty then some false else none
      else return none

def related (rel : Relation) (l r : Form) : Result Form :=
  match rel with
  | .eq | .ne => do
    match ← equal? l r with
    | some b => return .truth (b == (rel == .eq))
    | none => return .relate rel l r
  | rel => ordered rel l r

def opposite : Form → Form
  | .relate rel l r => .relate rel.negated l r
  | .truth b => .truth !b
  | .foreign "Not" [u] => u
  | u => .foreign "Not" [u]

/-! ## The one way to write a comparison -/

def comesFirst (u v : Form) : Bool := Key.compare u.key v.key != .gt

def isSymbol : Form → Bool
  | .symbol _ => true
  | _ => false

/-- The number stands on the right, the sides stand in order, and the left
side has no sign in front. -/
def arranged (rel : Relation) (l r : Form) : Relation × Form × Form :=
  let swap :=
    if r.isNumeric then
      match l, r with
      | .number a, .number b => b.lt a
      | _, _ => false
    else l.isNumeric || (r.isSymbol && !l.isSymbol) || !(comesFirst l r)
  let p := if swap then (rel.reversed, r, l) else (rel, l, r)
  if p.2.1.leansNegative then (p.1.reversed, p.2.1.turned, p.2.2.turned)
  else if !p.2.2.isNumeric && p.2.2.leansNegative && !(comesFirst p.2.1 p.2.2.turned) then
    (p.1, p.2.2.turned, p.2.1.turned)
  else p

/-- A rational number in front of the left side is divided out, and a
number added to it is taken to the right. -/
def canonical (c : Form) : Result Form :=
  match c with
  | .relate rel l r => do
    let p := arranged rel l r
    if p.2.1.isLogical || p.2.2.isLogical then return .relate p.1 p.2.1 p.2.2
    else
      let split : Form × Form := match p.2.1 with
        | .sum (.number (.exact b) :: us) => (.number (.exact b), rawSum us)
        | u => (zero, u)
      let m : Number × Form := match split.2 with
        | .product (.number (.exact a) :: us) => (.exact a, rawProduct us)
        | u => (.one, u)
      let moved ← if split.1 == zero then pure p.2.2 else rules.sub p.2.2 split.1
      let right ← if m.1 == .one then pure moved else rules.div moved (.number m.1)
      return .relate (if m.1.isNegative then p.1.reversed else p.1) m.2 right
  | c => .ok c

/-! ## Choices -/

/-- A condition as it may stand in a choice: one and zero are truth values,
a symbol may stand for one. -/
def condition (c : Form) : Result Form :=
  match c with
  | .truth _ | .symbol _ | .relate _ _ _ => .ok c
  | .number a =>
    if a == .one then .ok (.truth true)
    else if a == .zero then .ok (.truth false)
    else .error .mixedLogic
  | c => if c.isLogical then .ok c else .error .mixedLogic

/-- The pairs of values and conditions up to the first that always holds,
without those that never hold. -/
def reachable : List (Form × Form) → List (Form × Form)
  | [] => []
  | (v, c) :: rest =>
    match c with
    | .truth false => reachable rest
    | .truth true => [(v, c)]
    | c => (v, c) :: reachable rest

def either (c d : Form) : Form :=
  match c, d with
  | .truth true, _ | _, .truth true => .truth true
  | c, d => if c == d then c else .foreign "Or" (sorted [c, d])

/-- Takes in one pair after those that came before it (the last first). -/
def choose (seen : List Form) (acc : List (Form × Form)) (v c : Form) :
    Result (List Form × List (Form × Form)) := do
  let c ← canonical c
  if seen.any (· == c) then return (seen, acc)
  else
    let c ← match c with
      | .relate _ _ _ => do
        let n ← canonical c.opposite
        pure (if seen.any (· == n) then .truth true else c)
      | c => pure c
    let seen := seen ++ [c]
    match acc with
    | (v', c') :: rest =>
      if v' == v then return (seen, (v, either c' c) :: rest)
      else if c' == c then return (seen, acc)
      else return (seen, (v, c) :: acc)
    | [] => return (seen, [(v, c)])

/-- A choice inside a choice under the same condition is its value. -/
def nested (seen : List Form) (c v : Form) : Form :=
  match v with
  | .cases vs cs =>
    let live := (vs.zip cs).filter fun p => !(seen.any (· == p.2))
    let before := live.takeWhile fun p => !(p.2 == c)
    match live.drop before.length, before with
    | (w, d) :: _, [] => if d == .truth true then v else w
    | (w, d) :: _, before =>
      if d == .truth true then v
      else .cases (before.map Prod.fst ++ [w]) (before.map Prod.snd ++ [d])
    | [], _ => v
  | v => v

def chooseAll (ps : List (Form × Form)) : Result (List (Form × Form)) := do
  let s ← ps.foldlM (fun (s : List Form × List (Form × Form)) p =>
    choose s.1 s.2 (nested s.1 p.2 p.1) p.2) ([], [])
  return s.2.reverse

/-- The value at the first condition that holds. -/
def chosen (pairs : List (Form × Form)) : Result Form := do
  let ps ← pairs.mapM fun p => do return (p.1, ← condition p.2)
  match reachable ps with
  | [] => return undefined
  | [(v, .truth true)] => return v
  | ps =>
    match reachable (← chooseAll ps) with
    | [] => return undefined
    | [(v, .truth true)] => return v
    | qs => return .cases (qs.map Prod.fst) (qs.map Prod.snd)

end Form

end Fluxion.Algebra
