/-
The integration pipeline: strategies are tried in order and the first one
with a result wins. Sub-integrals go through the same pipeline one level
deeper, down to a limit; the recursion is on the levels that remain.

`integrate` finds an antiderivative or reports the integrand as
unsupported; `select` names the strategy that claims an integrand. The
latter is not itself an integration in progress, so the sub-integrals of
the strategies it tries have one level more.
-/
import Fluxion.Integral.Strategy
import Fluxion.Operand

namespace Fluxion

structure Pipeline (α : Type) where
  strategies : List (Strategy α)
  maxDepth : Nat
  /-- The limit as it was given. -/
  limit : String := maxDepth.repr

namespace Pipeline

variable {α : Type}

/-- The pipeline with the seven strategies, 32 levels deep. -/
def standard [Scalar α] : Pipeline α := { strategies := Strategy.standard, maxDepth := 32 }

variable [Scalar α] [Numeral α]

/-- The number of levels below a limit with a fractional part; one without
bound counts as a thousand. -/
def levelsBelow (a : α) : Nat :=
  ((List.range 1000).find? fun n => Scalar.le a (Scalar.ofNat n)).getD 1000

/-- A pipeline needs at least one level. -/
def make (strategies : List (Strategy α)) (maxDepth : Operand α) :
    Except (Fault α) (Pipeline α) :=
  let pipeline (levels : Nat) : Pipeline α := ⟨strategies, levels, maxDepth.spelled⟩
  match maxDepth with
  | .whole n => if n < 1 then .error .depthNotPositive else .ok (pipeline n.toNat)
  | .truth b => if b then .ok (pipeline 1) else .error .depthNotPositive
  | .real a =>
    if Scalar.lt a Scalar.one then .error .depthNotPositive else .ok (pipeline (levelsBelow a))
  | _ => .error .notNumeric

/-- The first strategy whose plan succeeds, with its result, when
sub-integrals are found by `sub`. -/
def claim (sub : Tree α → Except (Fault α) (Tree α)) (v : String) (t : Tree α) :
    List (Strategy α) → Except (Fault α) (Option (Strategy α × Tree α))
  | [] => .ok none
  | s :: rest =>
    match (s.plan v t).run sub with
    | .error e => .error e
    | .ok (some r) => .ok (some (s, r))
    | .ok none => claim sub v t rest

/-- An antiderivative found with `levels` levels left. -/
def run (p : Pipeline α) (v : String) : (levels : Nat) → Tree α → Except (Fault α) (Tree α)
  | 0, t => .error (.tooDeep p.limit t v)
  | n + 1, t =>
    match claim (run p v n) v t p.strategies with
    | .error e => .error e
    | .ok (some r) => .ok r.2
    | .ok none => .error (.unsupported t v)

def integrate (p : Pipeline α) (t : Tree α) (v : String) : Except (Fault α) (Tree α) :=
  p.run v p.maxDepth t

/-- An antiderivative, or nothing when there is none to be found. -/
def integrate? (p : Pipeline α) (t : Tree α) (v : String) : Except (Fault α) (Option (Tree α)) :=
  match p.integrate t v with
  | .ok r => .ok (some r)
  | .error (.unsupported _ _) => .ok none
  | .error (.tooDeep _ _ _) => .ok none
  | .error e => .error e

def select (p : Pipeline α) (t : Tree α) (v : String) : Except (Fault α) (Option (Strategy α)) :=
  (claim (p.run v p.maxDepth) v t p.strategies).map fun r => r.map Prod.fst

/-- One strategy alone, its sub-integrals going through the pipeline. -/
def attempt (p : Pipeline α) (s : Strategy α) (t : Tree α) (v : String) :
    Except (Fault α) (Option (Tree α)) :=
  (s.plan v t).run (p.run v p.maxDepth)

end Pipeline

end Fluxion
