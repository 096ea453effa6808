/-
Between expression trees and algebraic forms. A tree is read into a form
bottom up, combining as the rules say, with integral literals exact. A form
is written as a tree with sums and products folded to the left: a term with
a sign becomes a subtraction, a power with a negative exponent a division.
-/
import Fluxion.Algebra.Condition
import Fluxion.Double.Arithmetic

namespace Fluxion

open Fluxion.Algebra

/-! ## From a tree to a form -/

namespace Algebra

/-- A literal: exact where it is integral. -/
def Form.literal (x : Float) : Form :=
  if Double.isInteger x then Form.int (Double.toInt x) else .number (.approximate (.ofFloat x))

end Algebra

def Tree.toForm : Tree Float → Algebra.Result Form
  | .var x => .ok (.symbol x)
  | .const a => .ok (.literal a)
  | .binary op l r => do
    let u ← l.toForm
    let v ← r.toForm
    match op with
    | .add => rules.add u v
    | .sub => rules.add u (← rules.mul Form.minusOne v)
    | .mul => rules.mul u v
    | .div => rules.mul u (← rules.inv v)
    | .pow => rules.power u v
  | .unary op t => do
    let u ← t.toForm
    match op with
    | .neg => rules.neg u
    | .sqrt => rules.sqrt u
    | op => rules.call op u
  | .relate rel l r => do
    let u ← l.toForm
    let v ← r.toForm
    Form.related rel u v
  | .branch c t f => do
    let u ← t.toForm
    let d ← c.toForm
    let v ← f.toForm
    Form.chosen [(u, d), (v, .truth true)]

/-! ## Numerator and denominator -/

namespace Algebra.Form

/-- What a power contributes to a fraction whose exponent is a product of
unknown sign. -/
def splitPower (b e : Form) : Result (List Form × List Form) := do
  let down := e.leansNegative
  let f ← if down then rules.neg e else pure e
  let whole ← rules.power b f
  let parts ← match b with
    | .number (.exact q) =>
      if q.den == 1 then pure ([whole], [])
      else do
        let n ← rules.power (int q.num) f
        let d ← rules.power (int q.den) f
        pure ([n], [d])
    | _ => pure ([whole], [])
  return if down then (parts.2, parts.1) else parts

def splitFactor (u : Form) : Result (List Form × List Form) :=
  let ofPower (b e : Form) : Result (List Form × List Form) := do
    if e.isNegative then
      if e == minusOne then return ([], [b])
      else return ([], [← rules.power b (← rules.neg e)])
    else if e.isPositive then return ([u], [])
    else if e.isProduct then splitPower b e
    else return ([u], [])
  match u with
  | .power b e => ofPower b e
  | .call .exp v => ofPower (.constant .e) v
  | .number (.exact q) =>
    if q.den == 1 then .ok ([u], []) else .ok ([int q.num], [int q.den])
  | u => .ok ([u], [])

def fraction (u : Form) : Result (Form × Form) := do
  let parts ← u.factors.mapM splitFactor
  let n ← rules.product (parts.flatMap Prod.fst)
  let d ← rules.product (parts.flatMap Prod.snd)
  return (n, d)

/-! ## From a form to a tree -/

/-- The sign of a term, which a truth value does not have. -/
def isSubtracted (u : Form) : Result Bool :=
  if u.isLogical then .error .noAlgebra else .ok u.leansNegative

end Algebra.Form

namespace Algebra

/-- What writing a form as a tree needs: the numbers of the tree, and the
steps of algebra that move signs and denominators. The tree has the value
of the form whatever the steps do, as long as each of them keeps values. -/
structure Steps (α : Type) where
  number : Number → α
  constant : Constant → α
  negate : Form → Except (Fault α) Form
  isSubtracted : Form → Except (Fault α) Bool
  /-- Whether the number in front of a product is negative. -/
  isNegative : Form → Bool
  fraction : Form → Except (Fault α) (Form × Form)
  power : Form → Form → Except (Fault α) Form

def Steps.standard : Steps Float where
  number := Number.toFloat
  constant := Constant.toFloat
  negate := rules.neg
  isSubtracted := Form.isSubtracted
  isNegative u := u.coefficient.1.isNegative
  fraction := Form.fraction
  power := rules.power

namespace Form

variable {α : Type} [Scalar α]

/-- The tree of a form by given steps; `fuel` has to reach the depth of the
tree. -/
def toTreeBy (s : Steps α) : (fuel : Nat) → Form → Except (Fault α) (Tree α)
  | 0, _ => .error .noTreeForm
  | fuel + 1, u =>
    match u with
    | .symbol x => Tree.named x
    | .number a => if a.isFinite then Tree.literal (s.number a) else .error .notRealConstant
    | .constant c => Tree.literal (s.constant c)
    | .sum [] => Tree.literal Scalar.zero
    | .sum (v :: vs) => do
      let first ← toTreeBy s fuel v
      vs.foldlM
        (fun t w => do
          if ← s.isSubtracted w then
            return .binary .sub t (← toTreeBy s fuel (← s.negate w))
          else return .binary .add t (← toTreeBy s fuel w))
        first
    | .product vs => do
      if s.isNegative u then return .unary .neg (← toTreeBy s fuel (← s.negate u))
      else
        let f ← s.fraction u
        if !(f.2 == one) then
          return .binary .div (← toTreeBy s fuel f.1) (← toTreeBy s fuel f.2)
        else
          match vs with
          | [] => Tree.literal Scalar.one
          | v :: vs =>
            let first ← toTreeBy s fuel v
            vs.foldlM (fun t w => do return .binary .mul t (← toTreeBy s fuel w)) first
    | .power b e => do
      if e == half then return .unary .sqrt (← toTreeBy s fuel b)
      else
        match e with
        | .number a =>
          if a.isNegative then
            let below ← s.power b (.number a.neg)
            return .binary .div (.const Scalar.one) (← toTreeBy s fuel below)
          else return .binary .pow (← toTreeBy s fuel b) (← toTreeBy s fuel e)
        | e => return .binary .pow (← toTreeBy s fuel b) (← toTreeBy s fuel e)
    | .call op v => do return .unary op (← toTreeBy s fuel v)
    | .cases vs cs =>
      match (vs.zip cs).reverse with
      | (v, c) :: rest =>
        if c == .truth true then do
          let last ← toTreeBy s fuel v
          rest.foldlM
            (fun t p => do
              let c ← toTreeBy s fuel p.2
              return .branch c (← toTreeBy s fuel p.1) t)
            last
        else .error .noDefaultBranch
      | [] => .error .noTreeForm
    | .relate rel l r => do
      return .relate rel (← toTreeBy s fuel l) (← toTreeBy s fuel r)
    | .unsigned | .imaginary | .truth _ | .foreign _ _ => .error .noTreeForm

def toTree (u : Form) : Result (Tree Float) := toTreeBy .standard (8 * u.size + 16) u

end Form

end Algebra

/-- A tree through its algebraic form and back. -/
def Tree.normalized (t : Tree Float) : Algebra.Result (Tree Float) := do (← t.toForm).toTree

end Fluxion
