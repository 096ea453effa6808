/-
How forms are combined. The rules for sums, products, powers and functions
need one another, so each is written over a record of all of them, and
`Algebra.Rules` ties them together in levels: a rule of one level uses the
rules of the level below. At the bottom nothing is combined any more.
-/
import Fluxion.Algebra.Order
import Fluxion.Algebra.Value
import Fluxion.Fault

namespace Fluxion.Algebra

abbrev Result (β : Type) := Except (Fault Float) β

structure Rules where
  sum : List Form → Result Form
  product : List Form → Result Form
  power : Form → Form → Result Form
  /-- A function of one argument. -/
  call : UnaryOp → Form → Result Form

namespace Rules

/-- Nothing is combined. -/
def inert : Rules where
  sum us := .ok (Form.rawSum us)
  product us := .ok (Form.rawProduct us)
  power b e := .ok (.power b e)
  call op u := .ok (.call op u)

variable (r : Rules)

def add (u v : Form) : Result Form := r.sum [u, v]
def mul (u v : Form) : Result Form := r.product [u, v]

/-- The negative. A sign is distributed over a sum; a comparison or a truth
value has no negative. -/
def neg (u : Form) : Result Form :=
  match u with
  | .sum _ => r.product [Form.minusOne, u]
  | u => if u.isLogical then .error .mixedLogic else .ok u.negated

def sub (u v : Form) : Result Form := do
  let w ← r.neg v
  r.sum [u, w]

def inv (u : Form) : Result Form := r.power u Form.minusOne

def div (u v : Form) : Result Form := do
  let w ← r.inv v
  if u == Form.one then .ok w else r.product [u, w]

def sqrt (u : Form) : Result Form := r.power u Form.half

def square (u : Form) : Result Form := r.power u Form.two

end Rules

/-- Adds to the entry of a key, or makes a new entry at the end. -/
def gather {κ ν : Type} [BEq κ] (combine : ν → ν → ν) (k : κ) (v : ν) :
    List (κ × ν) → List (κ × ν)
  | [] => [(k, v)]
  | e :: rest =>
    if e.1 == k then (e.1, combine e.2 v) :: rest else e :: gather combine k v rest

end Fluxion.Algebra
