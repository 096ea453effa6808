/-
Calls on one pipeline over time, with the integrand and the variable as
the caller hands them over. What is refused before the pipeline is reached
leaves the ledger alone.
-/
import Fluxion.Integral.Ledger
import Fluxion.Operand

namespace Fluxion

structure Call (α : Type) where
  request : Pipeline.Request
  integrand : Operand α
  wrt : Operand α

namespace Pipeline

variable {α : Type} [Scalar α] [Numeral α]

/-- One call: the integrand is promoted, then the variable is read. -/
def call (p : Pipeline α) (c : Call α) (l : Ledger α) :
    Except (Fault α) (Reply α) × Ledger α :=
  match c.integrand.promote with
  | .error e => (.error e, l)
  | .ok t =>
    match c.wrt.variableName with
    | .error e => (.error e, l)
    | .ok v => p.answer c.request t v l

/-- The replies to a sequence of calls, and the ledger they leave. -/
def calls (p : Pipeline α) :
    List (Call α) → Ledger α → List (Except (Fault α) (Reply α)) × Ledger α
  | [], l => ([], l)
  | c :: rest, l =>
    let first := p.call c l
    let others := p.calls rest first.2
    (first.1 :: others.1, others.2)

/-- One strategy alone on a ledger. -/
def attemptRecorded (p : Pipeline α) (s : Strategy α) (t : Tree α) (v : String) (l : Ledger α) :
    Except (Fault α) (Option (Tree α)) × Ledger α :=
  (s.plan v t).record (p.runRecorded v (p.maxDepth + 1)) l

end Pipeline

end Fluxion
