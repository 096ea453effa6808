/-
Sums: nested sums are opened, numbers are added up, terms that differ only
in their coefficient are collected, and what remains is put in order with
the number in front.
-/
import Fluxion.Algebra.Rules.Basic

namespace Fluxion.Algebra.Sum

/-- What has been read of a sum: the number so far, unless it is the
infinity without direction, and the terms with their coefficients. -/
structure State where
  total : Number
  unsigned : Bool
  collected : List (Form × Number)

def State.empty : State := ⟨.zero, false, []⟩

/-- Takes a number in; nothing to be had any more is `none`. -/
def State.addNumber (s : State) (a : Number) : Option State :=
  if s.unsigned then
    if a.isFinite then some s else none
  else
    let t := s.total.add a
    if t == .undefined then none else some { s with total := t }

def State.addTerm (s : State) (u : Form) (c : Number) : State :=
  { s with collected := gather Number.add u c s.collected }

/-- Reads the terms; those of a nested sum come after all others. `fuel`
has to reach the number of parts. -/
def read (r : Rules) : (fuel : Nat) → List Form → State → Result (Option State)
  | 0, _, s => .ok (some s)
  | _, [], s => .ok (some s)
  | fuel + 1, u :: rest, s =>
    match u with
    | .number a =>
      match s.addNumber a with
      | none => .ok none
      | some s' => read r fuel rest s'
    | .unsigned =>
      if s.unsigned || !s.total.isFinite then .ok none
      else read r fuel rest { s with unsigned := true }
    | .sum us => read r fuel (rest ++ us) s
    | .product _ =>
      let c := u.coefficient
      read r fuel rest (s.addTerm c.2 c.1)
    | .power (.number b) (.number e) =>
      if e.int?.isSome || (e.isExact && e.isNegative) then do
        let v ← r.power (.number b) (.number e)
        if v == u then read r fuel rest (s.addTerm u .one) else read r fuel (rest ++ [v]) s
      else read r fuel rest (s.addTerm u .one)
    | u => read r fuel rest (s.addTerm u .one)

def rebuild (r : Rules) (u : Form) (c : Number) : Result Form :=
  if c == .one then .ok u
  else
    match u with
    | .product us => .ok (.product (.number c :: us))
    | .sum _ => .ok (.product [.number c, u])
    | u => r.product [.number c, u]

/-- The terms that an infinite number does not swallow. -/
def survive (s : State) (us : List Form) : List Form :=
  if s.unsigned then us.filter fun u => u.real?.isNone
  else if s.total.isFinite then us
  else us.filter fun u => !u.isReal

def finish (r : Rules) (s : State) : Result Form := do
  let kept := s.collected.filter fun e => !e.2.isZero
  let rebuilt ← kept.mapM fun e => rebuild r e.1 e.2
  let ordered := Form.sorted (survive s rebuilt)
  return Form.rawSum
    (if s.unsigned then .unsigned :: ordered
    else if s.total == .zero then ordered
    else .number s.total :: ordered)

/-- A number plus a product stays as it is. -/
def pair? : List Form → Option Form
  | [a, b] =>
    match a, b with
    | .product _, .number (.exact _) => some (.sum [b, a])
    | .number (.exact _), .product _ => some (.sum [a, b])
    | _, _ => none
  | _ => none

/-- The sum of forms; a comparison is no term. -/
def rule (r : Rules) (us : List Form) : Result Form :=
  if us.any fun u => match u with | .relate _ _ _ => true | _ => false then .error .mixedLogic
  else
    match us.filter fun u => !(u == Form.zero) with
    | [] => .ok Form.zero
    | [u] => .ok u
    | vs =>
      match pair? vs with
      | some v => .ok v
      | none => do
        match ← read r (2 * Form.totalSize vs + 2) vs .empty with
        | none => return Form.undefined
        | some s => finish r s

end Fluxion.Algebra.Sum
