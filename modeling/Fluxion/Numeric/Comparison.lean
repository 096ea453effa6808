/-
Symbolic results beside numerical ones. A calculator holds the step of its
difference quotient and the settings of its quadrature; a definite
integral is found symbolically where that works and by quadrature where it
does not, and a comparison sets a derivative and an integral found in both
ways side by side.
-/
import Fluxion.Definite
import Fluxion.Derivative
import Fluxion.Numeric.Difference
import Fluxion.Numeric.Quadrature
import Fluxion.Operand

namespace Fluxion.Numeric

structure Calculator where
  step : Float
  quadrature : Quadrature

/-- A quantity found symbolically and numerically. -/
structure Pair where
  symbolic : Float
  numerical : Float

def Pair.error (p : Pair) : Float := (p.symbolic - p.numerical).abs

namespace Calculator

def standard : Calculator := ⟨1e-3, .standard⟩

/-- The step of a difference quotient has to be positive. -/
def make (step : Float) (q : Quadrature) : Except (Fault Float) Calculator :=
  if step ≤ 0.0 then .error .stepNotPositive else .ok ⟨step, q⟩

def derivative (c : Calculator) (t : Tree Float) (v : String) (x : Float) :
    Except (Fault Float) Float :=
  fivePoint t v c.step x

/-- The integral by quadrature, whose settings have to be of use. An empty
range is settled before either the settings or the integrand are looked
at, so that it has an integral even where the integrand has no value. -/
def integral (c : Calculator) (t : Tree Float) (v : String) (a b : Float) :
    Except (Fault Float) Float :=
  if a == b then .ok 0.0
  else if c.quadrature.isUsable then c.quadrature.integral (fun x => t.evaluateAt v x) a b
  else .error .outsideDomain

/-- The symbolic integral, or quadrature when that declines. -/
def definite (c : Calculator) (t : Tree Float) (v : String) (a b : Float) :
    Except (Fault Float) Float × Option (Fault Float) :=
  match t.definiteIntegral v a b with
  | .ok x => (.ok x, none)
  | .error e => if e.declines then (c.integral t v a b, some e) else (.error e, none)

/-! ## With operands -/

def derivativeOf (c : Calculator) (expr wrt point : Operand Float) :
    Except (Fault Float) Float := do
  let t ← expr.promote
  let v ← wrt.variableName
  let x ← point.number
  c.derivative t v x

def integralOf (c : Calculator) (expr wrt a b : Operand Float) : Except (Fault Float) Float := do
  let t ← expr.promote
  let v ← wrt.variableName
  let lower ← a.number
  let upper ← b.number
  c.integral t v lower upper

/-- The integral in whichever way works, with the reason for quadrature if
it had to be used. -/
def definiteOf (c : Calculator) (expr wrt a b : Operand Float) :
    Except (Fault Float) (Except (Fault Float) Float × Option (Fault Float)) := do
  let t ← expr.promote
  let v ← wrt.variableName
  let lower ← a.number
  let upper ← b.number
  return c.definite t v lower upper

/-- The derivative at a point and the integral from `a` to `b`, each in both
ways. The symbolic way takes a number that is missing for none at all, the
numerical way refuses it. -/
def compareOf (c : Calculator) (expr wrt point a b : Operand Float) :
    Except (Fault Float) (Pair × Pair) := do
  let t ← expr.promote
  let v ← wrt.variableName
  let symbolic ← (t.derivative v).evaluateAt v (← point.cell)
  let numerical ← c.derivative t v (← point.number)
  let F ← t.antiderivative v
  let upper ← F.evaluateAt v (← b.cell)
  let lower ← F.evaluateAt v (← a.cell)
  let approximate ← c.integral t v (← a.number) (← b.number)
  return (⟨symbolic, numerical⟩, ⟨upper - lower, approximate⟩)

end Calculator

end Fluxion.Numeric
