/-
Recognising one expression as a constant multiple of another, which is
what substitution needs: the cofactor of `g (f x)` has to be `k` times the
derivative of `f`.

Three tests are made in turn. The compact texts may agree (`k = 1`); they
may agree after a literal coefficient is taken off each; and, where
sampling is enabled, the two sides may have the same ratio at every sample
point. A ratio found by sampling is rounded to a near integer.
-/
import Fluxion.Integral.Pattern
import Fluxion.Operand
import Fluxion.Simplification
import Fluxion.Derivative

namespace Fluxion

/-- The settings of matching as they are described. -/
structure Wording where
  sampled : String
  samples : String
  rtol : String
  seed : String

/-- How far matching goes beyond comparing texts. -/
structure Matching (α : Type) where
  sampled : Bool
  samples : Nat
  /-- The relative spread allowed between sampled ratios. -/
  rtol : α
  seed : Int
  wording : Wording

namespace Matching

variable {α : Type} [Scalar α]

/-- Texts only; eight samples and a spread of 10^-9 where sampling is
turned on. -/
def standard : Matching α :=
  ⟨false, 8, Scalar.decimal 1 (-9), 0, ⟨"False", "8", "1e-09", "0"⟩⟩

variable [Numeral α]

/-- The number of samples: fewer than two cannot show a ratio to be
constant. -/
def sampleCount : Operand α → Except (Fault α) Nat
  | .whole n => if n < 2 then .error .tooFewSamples else .ok n.toNat
  | .truth _ => .error .tooFewSamples
  | .real a =>
    if Scalar.lt a Scalar.two then .error .tooFewSamples else .ok (standard : Matching α).samples
  | _ => .error .notNumeric

/-- The settings that a caller gives; those not given are the standard
ones. -/
def make (sampled samples rtol seed : Option (Operand α)) : Except (Fault α) (Matching α) := do
  let s : Matching α := standard
  let n ← match samples with
    | some o => sampleCount o
    | none => pure s.samples
  let spelled (o : Option (Operand α)) (usual : String) : String :=
    match o with
    | some o => o.spelled
    | none => usual
  return {
    sampled := (sampled.map Operand.isTrue).getD s.sampled
    samples := n
    rtol := (rtol.bind fun o => o.number.toOption).getD s.rtol
    seed := match seed with
      | some (.whole k) => k
      | _ => s.seed
    wording := ⟨spelled sampled s.wording.sampled, spelled samples s.wording.samples,
      spelled rtol s.wording.rtol, spelled seed s.wording.seed⟩ }

end Matching

namespace Tree

variable {α : Type} [Scalar α]

/-- A literal coefficient and what it multiplies; a bare literal is all
coefficient. -/
def peel : Tree α → α × Option (Tree α)
  | .const a => (a, none)
  | .unary .neg u =>
    let p := u.peel
    (Scalar.neg p.1, p.2)
  | .binary .mul (.const a) r => (a, some r)
  | .binary .mul l (.const a) => (a, some l)
  | t => (Scalar.one, some t)

end Tree

/-! ## Sampled ratios -/

namespace Sampling

variable {α : Type} [Scalar α]

/-- A well-mixed natural number for each seed, variable and sample. -/
def mixed (seed : Int) (i j : Nat) : Nat :=
  let step (n : Nat) : Nat := (n * 6364136223846793005 + 1442695040888963407) % Nat.pow 2 64
  step (step (step (seed.toNat + 1) + i + 1) + j + 1) / Nat.pow 2 20

/-- A point strictly between 0.1 and 0.9, inside the domain of every named
function. It is a multiple of 1/1024, so that products of a few of them
are free of rounding. -/
def point (seed : Int) (i j : Nat) : α :=
  Scalar.decimal ((103 + mixed seed i j % 818 : Nat) * 9765625) (-10)

def bindings (seed : Int) (n : Nat) (names : List String) : Environment (Grid α) :=
  names.zipIdx.map fun x => (x.1, ⟨[n], (List.range n).map (point seed x.2)⟩)

/-- The cells of a result at all `n` samples; without variables there is
one cell for all of them. -/
def spread (n : Nat) (g : Grid α) : List α := (g.broadcastTo [n]).cells

/-- The common ratio of samples: the first, provided none of the
denominators is zero, every ratio is finite and equal to the first or
within `rtol` of it, and the first is not zero; rounded to an integer as
close as that. -/
def commonRatio? (rtol : α) (numerators denominators : List α) : Option α :=
  if denominators.any fun d => Scalar.eq d Scalar.zero then none
  else
    let ratios := List.zipWith Scalar.div numerators denominators
    match ratios with
    | [] => none
    | k :: _ =>
      if Scalar.eq k Scalar.zero || !ratios.all Scalar.isFinite then none
      else if !ratios.all fun r => Scalar.eq r k ||
          Scalar.le (Scalar.abs (Scalar.sub r k)) (Scalar.mul rtol (Scalar.abs k)) then none
      else
        let nearest := Scalar.round k
        if Scalar.le (Scalar.abs (Scalar.sub k nearest))
            (Scalar.mul rtol (Scalar.max Scalar.one (Scalar.abs k))) then some nearest
        else some k

def ratioAt? (rtol : α) (n : Nat) (env : Environment (Grid α)) (candidate derivative : Tree α) :
    Option α :=
  match candidate.evaluateGrid env with
  | .error _ => none
  | .ok p =>
    match derivative.evaluateGrid env with
    | .error _ => none
    | .ok q => commonRatio? rtol (spread n p) (spread n q)

end Sampling

namespace Matching

variable {α : Type} [Scalar α]

def sampledRatio? (m : Matching α) (candidate derivative : Tree α) : Option α :=
  let names := (candidate.names ++ derivative.names).foldr Tree.insertName []
  Sampling.ratioAt? m.rtol m.samples (Sampling.bindings m.seed m.samples names)
    candidate derivative

variable [Numeral α]

/-- Two remainders after peeling spell the same. -/
def sameRemainder (v : String) : Option (Tree α) → Option (Tree α) → Bool
  | none, none => true
  | some a, some b => a.compact v == b.compact v
  | _, _ => false

/-- The constant `k` with `candidate = k · d(inner)/dv`, if one of the
tests finds it. -/
def ratio? (m : Matching α) (candidate inner : Tree α) (v : String) : Option α :=
  let c := candidate.simplify
  let d := (inner.derivative v).simplify
  if c.compact v == d.compact v then some Scalar.one
  else
    let p := c.peel
    let q := d.peel
    if !Scalar.eq q.1 Scalar.zero && sameRemainder v p.2 q.2 then some (Scalar.div p.1 q.1)
    else if m.sampled then m.sampledRatio? c d
    else none

end Matching

end Fluxion
