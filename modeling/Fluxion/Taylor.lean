/-
Taylor polynomials. The `n`-th coefficient is the value of the `n`-th
simplified derivative at the point, divided by `n!`; a coefficient not
above 10^-10 in size is left out. The expansion stops at the first
derivative that has no value at the point.
-/
import Fluxion.Evaluation
import Fluxion.Simplification
import Fluxion.Derivative

namespace Fluxion

/-- A Taylor polynomial and the order at which it had to stop, if any. -/
structure Expansion (α : Type) where
  polynomial : Tree α
  stopped : Option Nat

namespace Taylor

variable {α : Type} [Scalar α]

def factorial : Nat → Nat
  | 0 => 1
  | n + 1 => (n + 1) * factorial n

/-- Values at most this large count as zero. -/
def tolerance : α := Scalar.decimal 1 (-10)

/-- `value / n!`; the factorial has to be in the range of the numbers. -/
def coefficient (value : α) (n : Nat) : Except (Fault α) (Tree α) :=
  let d : α := Scalar.ofNat (factorial n)
  if Scalar.isFinite d then Tree.literal (Scalar.div value d) else .error .integerTooLarge

def term (c shift : Tree α) (n : Nat) : Tree α :=
  if n == 0 then c
  else if n == 1 then .binary .mul c shift
  else .binary .mul c (.binary .pow shift (.const (Scalar.ofNat n)))

/-- Adds the term of order `n` unless its value counts as zero. -/
def addTerm (acc shift : Tree α) (value : α) (n : Nat) : Except (Fault α) (Tree α) :=
  if Scalar.gt (Scalar.abs value) tolerance then
    (coefficient value n).map fun c => .binary .add acc (term c shift n)
  else .ok acc

/-- Adds the term of order `n` and then, as long as orders are `left`, the
terms above it; `derivative` is the `n`-th. -/
def terms (v : String) (point : α) (shift : Tree α) :
    (left n : Nat) → (derivative acc : Tree α) → Except (Fault α) (Expansion α)
  | left, n, d, acc =>
    match d.evaluateAt v point with
    | .error e => if e.noValue then .ok ⟨acc, some n⟩ else .error e
    | .ok value =>
      match addTerm acc shift value n with
      | .error e => .error e
      | .ok acc' =>
        match left with
        | 0 => .ok ⟨acc', none⟩
        | left + 1 => terms v point shift left (n + 1) (d.derivative v).simplify acc'

/-- `v`, or `v - point` away from zero. -/
def shift (v : String) (point : α) : Except (Fault α) (Tree α) :=
  if Scalar.eq point Scalar.zero then .ok (.var v)
  else (Tree.literal point).map fun c => .binary .sub (.var v) c

def expand (t : Tree α) (v : String) (point : α) (order : Nat) :
    Except (Fault α) (Expansion α) := do
  let s ← shift v point
  let e ← terms v point s order 0 t Tree.zero
  return { e with polynomial := e.polynomial.simplify }

end Taylor

end Fluxion
