/-
What a strategy does with an integrand, as data: it declines, has an
antiderivative, fails, or asks for the integral of another tree and goes
on with the answer. A plan does not say how the sub-integrals are found;
that is left to whoever carries it out.

`Plan.run` carries a plan out with a given integrator. A sub-integral that
declines is answered with `none`; any other fault ends the plan.
-/
import Fluxion.Fault

namespace Fluxion

inductive Plan (α : Type) where
  | decline
  | done (antiderivative : Tree α)
  | fail (fault : Fault α)
  | ask (integrand : Tree α) (next : Option (Tree α) → Plan α)

namespace Plan

variable {α : Type}

def ofExcept : Except (Fault α) (Option (Tree α)) → Plan α
  | .ok none => .decline
  | .ok (some t) => .done t
  | .error e => .fail e

/-- Asks for one integral and builds on it; declines when it declines. -/
def build (integrand : Tree α) (f : Tree α → Tree α) : Plan α :=
  .ask integrand fun
    | some t => .done (f t)
    | none => .decline

/-- Carries a plan out, sub-integrals being found by `sub`. -/
def run (sub : Tree α → Except (Fault α) (Tree α)) : Plan α → Except (Fault α) (Option (Tree α))
  | .decline => .ok none
  | .done t => .ok (some t)
  | .fail e => .error e
  | .ask u next =>
    match sub u with
    | .ok t => (next (some t)).run sub
    | .error e => if e.declines then (next none).run sub else .error e

end Plan

end Fluxion
