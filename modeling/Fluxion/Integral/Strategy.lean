/-
The seven integration strategies, each as the plan it makes for an
integrand. They stand in the order in which they are tried: the power rule
and its neighbours, table integrals, exponentials, constant multiples,
substitution, integration by parts, and sums.
-/
import Fluxion.Integral.Matching
import Fluxion.Integral.Plan
import Fluxion.Tree.Product

namespace Fluxion

inductive Strategy (α : Type) where
  | powerRule
  | basicTrig
  | exponential
  | constantMultiple
  | substitution (matching : Matching α)
  | byParts
  | sumDifference

namespace Strategy

variable {α : Type} [Scalar α]

/-! ## Power rule -/

/-- `c · ln v`, without the factor when it is one. -/
def logTerm (v : String) (c : Tree α) : Tree α :=
  if c.eq Tree.one then .unary .ln (.var v) else .binary .mul c (.unary .ln (.var v))

/-- `v ^ n / n` for the raised exponent `n`. -/
def raisedPower (v : String) (n : α) : Except (Fault α) (Tree α) :=
  (Tree.literal n).map fun k => .binary .div (.binary .pow (.var v) k) k

/-- `c / d` with `c` free of `v`: a logarithm or a raised power. -/
def reciprocal (v : String) (c d : Tree α) : Plan α :=
  if d.isVariable v then .done (logTerm v c)
  else if d.isPowerOf v then
    match d with
    | .binary .pow _ e =>
      match e.constantValue? with
      | none => .decline
      | some n =>
        if Scalar.eq n Scalar.one then .done (logTerm v c)
        else
          .ofExcept ((raisedPower v (Scalar.sub Scalar.one n)).map fun t =>
            some (if c.eq Tree.one then t else .binary .mul c t))
    | _ => .decline
  else .decline

def ofPower (v : String) (n : α) : Plan α :=
  if Scalar.eq n (Scalar.neg Scalar.one) then .done (.unary .ln (.var v))
  else .ofExcept ((raisedPower v (Scalar.add n Scalar.one)).map some)

/-- What the power rule does with an integrand that is neither `v` nor a
power of it with a known exponent. -/
def powerRest (v : String) (t : Tree α) : Plan α :=
  if !t.mentions v then .done (.binary .mul t (.var v))
  else
    match t with
    | .binary .mul l r =>
      if !l.mentions v then .build r (.binary .mul l)
      else if !r.mentions v then .build l (.binary .mul r)
      else .decline
    | .binary .div c d => if !c.mentions v then reciprocal v c d else .decline
    | _ => .decline

/-- `v`, powers of `v`, constants, constant multiples and reciprocal
powers. -/
def powerRulePlan (v : String) (t : Tree α) : Plan α :=
  if t.isVariable v then .done (.binary .div (.binary .pow (.var v) Tree.two) Tree.two)
  else if t.isPowerOf v then
    match t with
    | .binary .pow _ e =>
      match e.constantValue? with
      | some n => ofPower v n
      | none => powerRest v t
    | _ => powerRest v t
  else powerRest v t

/-! ## Table integrals -/

def basicTrigPlan (v : String) (t : Tree α) : Plan α :=
  if t.isFunctionOf .sin v then .done (.unary .neg (.unary .cos (.var v)))
  else if t.isFunctionOf .cos v then .done (.unary .sin (.var v))
  else if t.isSquaredFunctionOf .sec v then .done (.unary .tan (.var v))
  else if t.isSquaredFunctionOf .csc v then .done (.unary .neg (.unary .cot (.var v)))
  else .decline

/-- `exp v`, and `a ^ v` for a base that is not known to be zero or
negative. -/
def exponentialPlan (v : String) (t : Tree α) : Plan α :=
  if t.isFunctionOf .exp v then .done t
  else
    match t with
    | .binary .pow b e =>
      if e.isVariable v && !b.mentions v then
        match b.constantValue? with
        | some a =>
          if Scalar.eq a Scalar.one then .done (.var v)
          else if Scalar.le a Scalar.zero then .decline
          else .done (.binary .div t (.unary .ln b))
        | none => .done (.binary .div t (.unary .ln b))
      else .decline
    | _ => .decline

/-! ## Linearity -/

/-- Signs, constant factors and constant divisors move out of the
integral. -/
def constantMultiplePlan (v : String) : Tree α → Plan α
  | .unary .neg u => .build u (.unary .neg)
  | .binary .mul l r =>
    if !l.mentions v && r.mentions v then .build r (.binary .mul l)
    else if l.mentions v && !r.mentions v then .build l (.binary .mul r)
    else .decline
  | .binary .div l r =>
    if !r.mentions v then .build l fun t => .binary .div t r else .decline
  | _ => .decline

/-- Both terms have to be integrated, the left one first. -/
def termwise (op : BinaryOp) (l r : Tree α) : Plan α :=
  .ask l fun
    | none => .decline
    | some a => .build r fun b => .binary op a b

def sumDifferencePlan : Tree α → Plan α
  | .binary .add l r => termwise .add l r
  | .binary .sub l r => termwise .sub l r
  | _ => .decline

/-! ## Integration by parts -/

/-- `∫ u dv = u V - ∫ V du` for one choice of `u` and `dv`; `otherwise` is
what remains to be tried. -/
def partsPlan (v : String) (u dv : Tree α) (otherwise : Plan α) : Plan α :=
  if u.isPolynomialLike v && dv.isIntegrableFactor v then
    let du := (u.derivative v).simplify
    .ask dv fun
      | none => otherwise
      | some w =>
        match Tree.regroup [w, du] with
        | .error e => .fail e
        | .ok rest =>
          .ask rest fun
            | none => otherwise
            | some s => .done (.binary .sub (.binary .mul u w) s)
  else otherwise

/-- Both orders of a product are tried. -/
def byPartsPlan (v : String) : Tree α → Plan α
  | .binary .mul l r => partsPlan v l r (partsPlan v r l .decline)
  | _ => .decline

/-! ## Substitution -/

/-- The antiderivative of the outer function at the inner expression. -/
def outerAntiderivative? (op : UnaryOp) (u : Tree α) : Option (Tree α) :=
  match op with
  | .sin => some (.unary .neg (.unary .cos u))
  | .cos => some (.unary .sin u)
  | .exp => some (.unary .exp u)
  | _ => none

variable [Numeral α]

/-- `k · G(u)`, without the factor when it is one. -/
def scaledBy (k : α) (t : Tree α) : Except (Fault α) (Tree α) :=
  if Scalar.eq k Scalar.one then .ok t
  else (Tree.literal k).map fun c => .binary .mul c t

/-- The product of the other factors; one when there are none. -/
def cofactor (rest : List (Tree α)) : Except (Fault α) (Tree α) :=
  if rest.isEmpty then .ok Tree.one else Tree.regroup rest

/-- Tries each factor as the outer function, `before` being the factors to
its left. -/
def substituteFactor (m : Matching α) (v : String) :
    List (Tree α) → List (Tree α) → Except (Fault α) (Option (Tree α))
  | _, [] => .ok none
  | before, factor :: after =>
    match factor with
    | .unary op u =>
      match outerAntiderivative? op u with
      | some g =>
        if u.mentions v then
          match cofactor (before ++ after) with
          | .error e => .error e
          | .ok c =>
            match m.ratio? c u v with
            | some k => (scaledBy k g).map some
            | none => substituteFactor m v (before ++ [factor]) after
        else substituteFactor m v (before ++ [factor]) after
      | none => substituteFactor m v (before ++ [factor]) after
    | _ => substituteFactor m v (before ++ [factor]) after

/-- `f'(v) · g(f(v))` with `g` sine, cosine or exponential. -/
def substitutionPlan (m : Matching α) (v : String) (t : Tree α) : Plan α :=
  .ofExcept (substituteFactor m v [] t.factors)

/-! ## All seven -/

def plan (s : Strategy α) (v : String) (t : Tree α) : Plan α :=
  match s with
  | .powerRule => powerRulePlan v t
  | .basicTrig => basicTrigPlan v t
  | .exponential => exponentialPlan v t
  | .constantMultiple => constantMultiplePlan v t
  | .substitution m => substitutionPlan m v t
  | .byParts => byPartsPlan v t
  | .sumDifference => sumDifferencePlan t

end Strategy

namespace Strategy

variable {α : Type}

/-- The name a strategy goes by in reports. -/
def name : Strategy α → String
  | .powerRule => "Power Rule"
  | .basicTrig => "Basic Trigonometric"
  | .exponential => "Exponential"
  | .constantMultiple => "Constant Multiple"
  | .substitution _ => "U-Substitution"
  | .byParts => "Integration by Parts"
  | .sumDifference => "Sum/Difference"

/-- Lower values are tried first. -/
def priority : Strategy α → Nat
  | .powerRule => 0
  | .basicTrig => 1
  | .exponential => 2
  | .constantMultiple => 3
  | .substitution _ => 4
  | .byParts => 5
  | .sumDifference => 6

def heading : Strategy α → String
  | .powerRule => "POWER_RULE"
  | .basicTrig => "BASIC_TRIG"
  | .exponential => "EXPONENTIAL"
  | .constantMultiple => "CONSTANT_MULTIPLE"
  | .substitution _ => "SUBSTITUTION"
  | .byParts => "INTEGRATION_BY_PARTS"
  | .sumDifference => "SUM_DIFFERENCE"

def description : Strategy α → String
  | .powerRule => "PowerRuleStrategy()"
  | .basicTrig => "BasicTrigStrategy()"
  | .exponential => "ExponentialStrategy()"
  | .constantMultiple => "ConstantMultipleStrategy()"
  | .substitution m =>
    "SubstitutionStrategy(numeric_fallback=" ++ m.wording.sampled ++ ", n_samples=" ++
      m.wording.samples ++ ", rtol=" ++ m.wording.rtol ++ ", seed=" ++ m.wording.seed ++ ")"
  | .byParts => "IntegrationByPartsStrategy()"
  | .sumDifference => "SumDifferenceStrategy()"

/-- The seven strategies in the order of their priority. -/
def standard [Scalar α] : List (Strategy α) :=
  [.powerRule, .basicTrig, .exponential, .constantMultiple, .substitution .standard, .byParts,
    .sumDifference]

end Strategy

end Fluxion
