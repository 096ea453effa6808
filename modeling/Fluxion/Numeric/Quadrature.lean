/-
Adaptive quadrature. A rule of 21 points, with the 10-point rule on every
second of them for an error estimate, is applied to the whole interval;
then the part with the largest error is halved until the errors together
are within tolerance or the number of parts reaches its limit. The points
include the centre of an interval and exclude its ends. An infinite range
is first mapped to the unit interval.
-/
import Fluxion.Double.Arithmetic
import Fluxion.Fault

namespace Fluxion.Numeric

/-- Tolerances and the largest number of parts. -/
structure Quadrature where
  limit : Nat
  epsabs : Float
  epsrel : Float

namespace Quadrature

def standard : Quadrature := ⟨200, 1.49e-10, 1.49e-10⟩

/-- Whether there is an interval to begin with and an error that can be
reached: an absolute one, or a relative one above rounding. -/
def isUsable (q : Quadrature) : Bool :=
  0 < q.limit && !(q.epsabs ≤ 0.0 && q.epsrel < 1.1102230246251565e-14)

/-- Positive points of the rule with their weights, the outermost first;
the third entry is the weight in the 10-point rule. -/
def points : List (Float × Float × Float) :=
  [(0.995657163025808080735527280689003, 0.011694638867371874278064396062192, 0.0),
   (0.973906528517171720077964012084452, 0.032558162307964727478818972459390,
    0.066671344308688137593568809893332),
   (0.930157491355708226001207180059508, 0.054755896574351996031381300244580, 0.0),
   (0.865063366688984510732096688423493, 0.075039674810919952767043140916190,
    0.149451349150580593145863396957725),
   (0.780817726586416897063717578345042, 0.093125454583697605535065465083366, 0.0),
   (0.679409568299024406234327365114874, 0.109387158802297641899210590325805,
    0.219086362515982043995534934228163),
   (0.562757134668604683339000099272694, 0.123491976262065851077958109585166, 0.0),
   (0.433395394129247190799265943165784, 0.134709217311473325928054001771707,
    0.269266719309996355091226921569469),
   (0.294392862701460198131126603103866, 0.142775938577060080797094273138717, 0.0),
   (0.148874338981631210884826001129720, 0.147739104901338491374841515972068,
    0.295524224714752870173815619188769)]

def centreWeight : Float := 0.149445554002916905664936468389821

/-- A part of the range with the integral over it and its error. -/
structure Part where
  low : Float
  high : Float
  integral : Float
  error : Float

variable {ε : Type}

/-- Both rules on one interval. -/
def rule (f : Float → Except ε Float) (low high : Float) : Except ε Part := do
  let centre := 0.5 * (low + high)
  let half := 0.5 * (high - low)
  let fc ← f centre
  let sums ← points.foldlM (fun (acc : Float × Float) p => do
    let d := half * p.1
    let x ← f (centre - d)
    let y ← f (centre + d)
    return (acc.1 + p.2.1 * (x + y), acc.2 + p.2.2 * (x + y))) (centreWeight * fc, 0.0)
  return ⟨low, high, sums.1 * half, ((sums.1 - sums.2) * half).abs⟩

/-- The part with the largest error, and the others. -/
def worst : List Part → Option (Part × List Part)
  | [] => none
  | p :: ps =>
    match worst ps with
    | none => some (p, [])
    | some (q, rest) => if q.error > p.error then some (q, p :: rest) else some (p, q :: rest)

def total (ps : List Part) : Float := ps.foldl (fun s p => s + p.integral) (-0.0)

def totalError (ps : List Part) : Float := ps.foldl (fun s p => s + p.error) 0.0

/-- Halves the worst part while the error is too large, at most `fuel`
times. -/
def refine (q : Quadrature) (f : Float → Except ε Float) :
    (fuel : Nat) → List Part → Except ε (List Part)
  | 0, ps => .ok ps
  | fuel + 1, ps =>
    let allowed := q.epsrel * (total ps).abs
    let allowed := if q.epsabs > allowed then q.epsabs else allowed
    if totalError ps ≤ allowed then .ok ps
    else
      match worst ps with
      | none => .ok ps
      | some (p, rest) => do
        let mid := 0.5 * (p.low + p.high)
        if mid ≤ p.low || p.high ≤ mid then return ps
        let l ← rule f p.low mid
        let r ← rule f mid p.high
        refine q f fuel (l :: r :: rest)

/-- The integral over a finite interval with `low ≤ high`. -/
def finite (q : Quadrature) (f : Float → Except ε Float) (low high : Float) : Except ε Float := do
  let p ← rule f low high
  let ps ← refine q f (q.limit - 1) [p]
  return total ps

/-- The integrand on `(0, 1)` for the range from `bound` to plus or minus
infinity, by `x = bound ± (1 - t) / t`. -/
def mapped (f : Float → Except ε Float) (bound sign t : Float) : Except ε Float := do
  let y ← f (bound + sign * ((1.0 - t) / t))
  return y / (t * t)

/-- The integral over a range with `a ≤ b`, finite or not. -/
def ordered (q : Quadrature) (f : Float → Except ε Float) (a b : Float) : Except ε Float :=
  if a.isInf && b.isInf then
    q.finite (fun t => do
      let x ← mapped f 0.0 1.0 t
      let y ← mapped f 0.0 (-1.0) t
      return x + y) 0.0 1.0
  else if b.isInf then q.finite (mapped f a 1.0) 0.0 1.0
  else if a.isInf then q.finite (mapped f b (-1.0)) 0.0 1.0
  else q.finite f a b

/-- The integral from `a` to `b`, negated when the bounds are swapped. -/
def integral (q : Quadrature) (f : Float → Except ε Float) (a b : Float) : Except ε Float :=
  if b < a then (q.ordered f b a).map fun x => -x else q.ordered f a b

end Quadrature

end Fluxion.Numeric
