/-
What the operations write into the journal: an integration notes every
attempt, a Taylor expansion that stops early says where, a definite
integral that falls back on quadrature says why, and a comparison reports
its findings.
-/
import Fluxion.Integral.Ledger
import Fluxion.Journal
import Fluxion.Numeric.Comparison
import Fluxion.Taylor

namespace Fluxion.Account

/-- The notes of a ledger, in the order of events. -/
def ofEvents (l : Ledger Float) : List Note :=
  l.events.reverse.map fun e => .debug e.text

def ofIntegral (t : Tree Float) (v : String) : List Note :=
  ofEvents (Pipeline.standard.answer .integrate t v Ledger.empty).2

/-- The notes about an expression and a variable, where they are such. -/
def about (expr wrt : Operand Float) (notes : Tree Float → String → List Note) : List Note :=
  match expr.promote, wrt.variableName with
  | .ok t, .ok v => notes t v
  | _, _ => []

/-- An expansion that stopped early. -/
def ofExpansion (what point : Operand Float) (e : Expansion Float) : List Note :=
  match e.stopped with
  | none => []
  | some n =>
    [.info ("Taylor expansion of " ++ what.spelled ++ " stopped at order " ++ n.repr ++
      ": derivative undefined at " ++ point.spelled) .detailed]

/-- Why quadrature had to be used. -/
def ofFallback (a b : Operand Float) (reason : Option (Fault Float)) : List Note :=
  match reason with
  | none => []
  | some e =>
    [.warning ("Symbolic integration failed (" ++ e.message?.getD "" ++
      "); using numerical quadrature on [" ++ a.spelled ++ ", " ++ b.spelled ++ "]")]

def findings (d i : Numeric.Pair) : Findings :=
  let rows (p : Numeric.Pair) : List (String × Operand Float) :=
    [("symbolic", .real p.symbolic), ("numerical", .real p.numerical), ("error", .real p.error)]
  [("derivative", rows d), ("integral", rows i)]

/-- A comparison: the integration is reached only if both derivatives have
a value, and the findings only if everything has. -/
def ofComparison (c : Numeric.Calculator) (point a b : Operand Float) (t : Tree Float)
    (v : String) : List Note :=
  let derivatives : Except (Fault Float) Unit := do
    let x ← point.number
    let _ ← (t.derivative v).evaluateAt v x
    let _ ← c.derivative t v x
    return ()
  match derivatives with
  | .error _ => []
  | .ok _ =>
    ofIntegral t v ++
      match c.compareOf (.tree t) (.text v) point a b with
      | .ok (d, i) =>
        [.milestone ("Compared symbolic and numerical results for " ++ t.text ++ " in " ++ v),
          .summary (findings d i)]
      | .error _ => []

end Fluxion.Account
