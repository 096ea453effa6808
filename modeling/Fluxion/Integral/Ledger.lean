/-
The pipeline in use over time. A ledger holds how many integrations are in
progress and what was tried so far; each call is carried out on the ledger
and leaves it behind. The depth counter goes up when an integration starts
and back to where it was when the integration ends, whether it succeeded
or not.
-/
import Fluxion.Integral.Pipeline

namespace Fluxion

/-- One entry of the account of an integration. -/
inductive Event (α : Type) where
  | trying (depth : Nat) (strategy : String) (integrand : Tree α) (wrt : String)
  | found (depth : Nat) (strategy : String) (integrand antiderivative : Tree α)

namespace Event

variable {α : Type} [Scalar α] [Numeral α]

def text : Event α → String
  | .trying depth s t v =>
    "[" ++ depth.repr ++ "] " ++ s ++ ": trying " ++ t.text ++ " d" ++ v
  | .found depth s t r => "[" ++ depth.repr ++ "] " ++ s ++ ": " ++ t.text ++ " -> " ++ r.text

end Event

structure Ledger (α : Type) where
  depth : Nat
  /-- What happened, the latest first. -/
  events : List (Event α)

namespace Ledger

def empty {α : Type} : Ledger α := ⟨0, []⟩

def note {α : Type} (l : Ledger α) (e : Event α) : Ledger α := { l with events := e :: l.events }

end Ledger

namespace Plan

variable {α : Type}

/-- Carries a plan out on a ledger. -/
def record (sub : Tree α → Ledger α → Except (Fault α) (Tree α) × Ledger α) :
    Plan α → Ledger α → Except (Fault α) (Option (Tree α)) × Ledger α
  | .decline, l => (.ok none, l)
  | .done t, l => (.ok (some t), l)
  | .fail e, l => (.error e, l)
  | .ask u next, l =>
    match sub u l with
    | (.ok t, l') => (next (some t)).record sub l'
    | (.error e, l') => if e.declines then (next none).record sub l' else (.error e, l')

end Plan

namespace Pipeline

variable {α : Type} [Scalar α] [Numeral α]

/-- Tries the strategies in order, each attempt noted at `depth`. -/
def claimRecorded (sub : Tree α → Ledger α → Except (Fault α) (Tree α) × Ledger α)
    (depth : Nat) (v : String) (t : Tree α) :
    List (Strategy α) → Ledger α → Except (Fault α) (Option (Strategy α × Tree α)) × Ledger α
  | [], l => (.ok none, l)
  | s :: rest, l =>
    match (s.plan v t).record sub (l.note (.trying depth s.name t v)) with
    | (.error e, l') => (.error e, l')
    | (.ok (some r), l') => (.ok (some (s, r)), l'.note (.found depth s.name t r))
    | (.ok none, l') => claimRecorded sub depth v t rest l'

/-- An integration on a ledger. The depth counter decides whether it may
start; `fuel` only has to exceed the levels that remain. -/
def runRecorded (p : Pipeline α) (v : String) :
    (fuel : Nat) → Tree α → Ledger α → Except (Fault α) (Tree α) × Ledger α
  | 0, t, l => (.error (.tooDeep p.limit t v), l)
  | n + 1, t, l =>
    if p.maxDepth ≤ l.depth then (.error (.tooDeep p.limit t v), l)
    else
      let depth := l.depth
      match claimRecorded (runRecorded p v n) depth v t p.strategies
          { l with depth := depth + 1 } with
      | (.error e, l') => (.error e, { l' with depth := depth })
      | (.ok (some r), l') => (.ok r.2, { l' with depth := depth })
      | (.ok none, l') => (.error (.unsupported t v), { l' with depth := depth })

/-- Tries the strategies in order without starting an integration. -/
def selectRecorded (p : Pipeline α) (v : String) (t : Tree α) :
    List (Strategy α) → Ledger α → Except (Fault α) (Option (Strategy α)) × Ledger α
  | [], l => (.ok none, l)
  | s :: rest, l =>
    match (s.plan v t).record (p.runRecorded v (p.maxDepth + 1)) l with
    | (.error e, l') => (.error e, l')
    | (.ok (some _), l') => (.ok (some s), l')
    | (.ok none, l') => p.selectRecorded v t rest l'

inductive Request where
  | integrate
  | attempt
  | select

inductive Reply (α : Type) where
  | antiderivative (t : Tree α)
  | perhaps (t : Option (Tree α))
  | strategy (s : Option (Strategy α))

def answer (p : Pipeline α) (request : Request) (t : Tree α) (v : String) (l : Ledger α) :
    Except (Fault α) (Reply α) × Ledger α :=
  match request with
  | .integrate =>
    match p.runRecorded v (p.maxDepth + 1) t l with
    | (.ok r, l') => (.ok (.antiderivative r), l')
    | (.error e, l') => (.error e, l')
  | .attempt =>
    match p.runRecorded v (p.maxDepth + 1) t l with
    | (.ok r, l') => (.ok (.perhaps (some r)), l')
    | (.error (.unsupported _ _), l') => (.ok (.perhaps none), l')
    | (.error (.tooDeep _ _ _), l') => (.ok (.perhaps none), l')
    | (.error e, l') => (.error e, l')
  | .select =>
    match p.selectRecorded v t p.strategies l with
    | (.ok s, l') => (.ok (.strategy s), l')
    | (.error e, l') => (.error e, l')

end Pipeline

end Fluxion
