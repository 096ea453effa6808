/-
The trigonometric functions: odd and even functions take the sign out of
their argument, quarter turns are taken out of a sum, rational multiples
of pi with a small denominator have exact values, and a function of its
inverse is the inverse's argument.
-/
import Fluxion.Algebra.Rules.Basic
import Fluxion.Algebra.Written

namespace Fluxion.Algebra.Angle

/-- An argument as a multiple of pi. -/
inductive Turn where
  /-- A rational multiple, at least zero and below two. -/
  | exact (q : Rat)
  /-- Another multiple, of which this is the argument. -/
  | other (argument : Form)

/-- A floating point coefficient that is a binary fraction with a single
leading digit after the point, as an exact one. -/
def exactCoefficient (c : Number) : Number :=
  match c with
  | .approximate x =>
    let f := x.abs.toFloat - x.abs.toFloat.floor
    let k := if f == 0.0 then 0 else (-(f.log / (2.0 : Float).log)).round.toUInt64.toNat
    let scaled := Rat.mul x.toRat (Rat.ofInt (Nat.pow 2 k : Nat))
    if scaled.den == 1 then .exact x.toRat else c
  | c => c

def turn? (r : Rules) (u : Form) : Result (Option Turn) :=
  let fs := u.factors
  if !(fs.any (· == Form.pi)) then .ok none
  else
    let rest := Form.rawProduct (fs.filter fun f => !(f == Form.pi))
    let c := rest.coefficient
    let k := exactCoefficient c.1
    if c.2 == Form.one then
      match k with
      | .exact q => .ok (some (.exact (Number.modulo q (Rat.ofInt 2))))
      | k => do
        let two := Number.ofInt 2
        let turns := (Rat.div (k.toBinary k.precision).toRat (Rat.ofInt 2)).floor
        let v ← r.product [.number (k.sub (two.mul (.ofInt turns))), Form.pi]
        return some (.other v)
    else do
      let v ← r.product [.number k, c.2, Form.pi]
      return some (.other v)

def multiple (r : Rules) (q : Rat) : Result Form := r.product [Form.rational q, Form.pi]

/-- The rational multiple of pi that a term is. -/
def share : Form → Option Rat
  | .constant .pi => some (Rat.ofInt 1)
  | .product [.number (.exact q), .constant .pi] => some q
  | _ => none

/-- A sum without its quarter turns, and how much of pi they are. -/
def peel? (r : Rules) (us : List Form) : Result (Option (Form × Rat)) :=
  let total := us.foldl
    (fun t u => match share u with | some q => Rat.add t q | none => t) (Rat.ofInt 0)
  let part := Number.modulo total (mkRat 1 2)
  let whole := Rat.sub total part
  if whole.num == 0 then .ok none
  else do
    let rest := us.filter fun u => (share u).isNone
    let v ← multiple r part
    let w ← r.sum (rest ++ [v])
    return some (w, whole)

def twice (q : Rat) : Rat := Rat.mul (Rat.ofInt 2) q
def isWhole (q : Rat) : Bool := q.den == 1

def isCall (op : UnaryOp) : Form → Bool
  | .call f _ => f == op
  | _ => false

/-! ## Exact cosines -/

/-- Denominators whose angle is a difference of two others. -/
def differences (q : Nat) : Option (Nat × Nat) :=
  match q with
  | 12 => some (3, 4)
  | 15 => some (6, 10)
  | 20 => some (4, 5)
  | 24 => some (6, 8)
  | 30 => some (5, 6)
  | 40 => some (8, 10)
  | 60 => some (20, 30)
  | 120 => some (40, 60)
  | _ => none

/-- The cosine of `q` times pi, where it has an exact value or can be
brought into the first quadrant. -/
def cosine? (r : Rules) (q : Rat) : Result (Option Form) :=
  let cosOf (x : Rat) : Result Form := do r.call .cos (← multiple r x)
  if isWhole q then .ok (some (if q.num % 2 == 0 then Form.one else Form.minusOne))
  else if isWhole (twice q) then .ok (some Form.zero)
  else
    let p := (q.num % (2 * q.den : Int)).toNat
    if q.den < p then do
      let v ← cosOf (Rat.sub q (Rat.ofInt 1))
      some <$> r.neg v
    else if q.den < 2 * p then do
      let v ← cosOf (Rat.sub (Rat.ofInt 1) q)
      some <$> r.neg v
    else
      match differences q.den with
      | some (a, b) => do
        let x := mkRat p a
        let y := mkRat p b
        let cx ← cosOf x
        let cy ← cosOf y
        let sx ← cosOf (Rat.sub (mkRat 1 2) x)
        let sy ← cosOf (Rat.sub (mkRat 1 2) y)
        some <$> r.add (← r.mul cx cy) (← r.mul sx sy)
      | none =>
        if 12 < q.den then .ok none
        else if q.den == 3 then .ok (some Form.half)
        else if q.den == 5 then do
          let root ← r.sqrt (Form.int 5)
          let v ← r.product [Form.ratio 1 4, root]
          some <$> r.sum [if p == 1 then Form.ratio 1 4 else Form.ratio (-1) 4, v]
        else if q.den % 2 == 0 then do
          let c ← cosOf (twice q)
          let s ← r.sum [Form.one, c]
          let h ← r.product [Form.half, s]
          some <$> r.sqrt h
        else .ok none

/-! ## Functions -/

def sine? (r : Rules) (u : Form) : Result (Option Form) := do
  match u with
  | .number .undefined | .unsigned => return some Form.undefined
  | .number (.infinite _) => return some (.foreign "AccumBounds" [Form.minusOne, Form.one])
  | u =>
    if u.isZero then return some Form.zero
    else if u.leansNegative then
      let v ← r.call .sin (← r.neg u)
      some <$> r.neg v
    else
      match ← turn? r u with
      | some (.other v) => if v == u then return none else some <$> r.call .sin v
      | some (.exact q) => exactly q
      | none =>
        match u with
        | .sum us =>
          match ← peel? r us with
          | some (x, m) =>
            let k ← multiple r m
            let a ← r.mul (← r.call .sin k) (← r.call .cos x)
            let b ← r.mul (← r.call .cos k) (← r.call .sin x)
            some <$> r.add a b
          | none => return none
        | .call .asin x => return some x
        | .call .atan x =>
          let d ← r.sqrt (← r.add Form.one (← r.square x))
          some <$> r.div x d
        | .call .acos x => some <$> (do r.sqrt (← r.sub Form.one (← r.square x)))
        | _ => return none
where
  exactly (q : Rat) : Result (Option Form) := do
    if isWhole q then return some Form.zero
    else if isWhole (twice q) then
      return some (if q.num % 4 == 1 then Form.one else Form.minusOne)
    else if 0 < q.floor then
      let v ← r.call .sin (← multiple r (Rat.sub q (Rat.ofInt q.floor)))
      some <$> r.neg v
    else if 0 < (twice q).floor then
      some <$> (do r.call .sin (← multiple r (Rat.sub (Rat.ofInt 1) q)))
    else
      let x := Number.modulo (Rat.add q (mkRat 3 2)) (Rat.ofInt 2)
      let v ← r.call .cos (← multiple r x)
      if !(isCall .cos v) then return some v
      else
        let w ← multiple r q
        if w == u then return none else some <$> r.call .sin w

def cosine (r : Rules) (u : Form) : Result (Option Form) := do
  match u with
  | .number .undefined | .unsigned => return some Form.undefined
  | .number (.infinite _) => return some (.foreign "AccumBounds" [Form.minusOne, Form.one])
  | u =>
    if u.isZero then return some Form.one
    else if u.leansNegative then some <$> (do r.call .cos (← r.neg u))
    else
      match ← turn? r u with
      | some (.other v) => if v == u then return none else some <$> r.call .cos v
      | some (.exact q) =>
        match ← cosine? r q with
        | some v => return some v
        | none =>
          let w ← multiple r q
          if w == u then return none else some <$> r.call .cos w
      | none =>
        match u with
        | .sum us =>
          match ← peel? r us with
          | some (x, m) =>
            let k ← multiple r m
            let a ← r.mul (← r.call .cos k) (← r.call .cos x)
            let b ← r.mul (← r.call .sin k) (← r.call .sin x)
            some <$> r.sub a b
          | none => return none
        | .call .acos x => return some x
        | .call .atan x =>
          some <$> (do r.inv (← r.sqrt (← r.add Form.one (← r.square x))))
        | .call .asin x => some <$> (do r.sqrt (← r.sub Form.one (← r.square x)))
        | _ => return none

/-- Tangents of tenths of pi. -/
def tenth (r : Rules) (n : Nat) : Result Form := do
  let root ← r.sqrt (Form.int 5)
  let scaled (k : Form) : Result Form := r.product [k, root]
  match n with
  | 1 => r.sqrt (← r.sum [Form.one, ← scaled (Form.ratio (-2) 5)])
  | 2 => r.sqrt (← r.sum [Form.int 5, ← scaled (Form.int (-2))])
  | 3 => r.sqrt (← r.sum [Form.one, ← scaled (Form.ratio 2 5)])
  | _ => r.sqrt (← r.sum [Form.int 5, ← scaled Form.two])

/-- Cosine and sine of a multiple of pi, where both are exact. -/
def both? (r : Rules) (q : Rat) : Result (Option (Form × Form)) := do
  let c ← r.call .cos (← multiple r q)
  let s ← r.call .cos (← multiple r (Rat.sub q (mkRat 1 2)))
  return if isCall .cos c || isCall .cos s then none else some (c, s)

/-- The representative of an angle nearest to zero, by half turns. -/
def nearest (q : Rat) : Rat :=
  Rat.sub (Number.modulo (Rat.add q (mkRat 1 2)) (Rat.ofInt 1)) (mkRat 1 2)

def tangentOf (r : Rules) (u : Form) (q : Rat) : Result (Option Form) := do
  if isWhole q then return some Form.zero
  else if q.den == 5 || q.den == 10 then
    let n := (10 / q.den) * (q.num % (q.den : Int)).toNat
    if 5 < n then some <$> (do r.neg (← tenth r (10 - n))) else some <$> tenth r n
  else
    let double ← if q.den % 2 == 0 then both? r (twice q) else pure none
    match double with
    | some (c, s) =>
      if s.isZero then return some .unsigned
      else some <$> (do r.sub (← r.inv s) (← r.div c s))
    | none =>
      match ← both? r (nearest q) with
      | some (c, s) => if c.isZero then return some .unsigned else some <$> r.div s c
      | none =>
        let w ← multiple r (nearest q)
        if w == u then return none else some <$> r.call .tan w

def tangent (r : Rules) (u : Form) : Result (Option Form) := do
  match u with
  | .number .undefined | .unsigned => return some Form.undefined
  | .number (.infinite _) => return some (.foreign "AccumBounds" [])
  | u =>
    if u.isZero then return some Form.zero
    else if u.leansNegative then
      let v ← r.call .tan (← r.neg u)
      some <$> r.neg v
    else
      match ← turn? r u with
      | some (.other v) => if v == u then return none else some <$> r.call .tan v
      | some (.exact q) => tangentOf r u q
      | none =>
        match u with
        | .sum us =>
          match ← peel? r us with
          | some (x, m) =>
            if isWhole m then some <$> r.call .tan x
            else some <$> (do r.neg (← r.call .cot x))
          | none => return none
        | .call .atan x => return some x
        | .call .asin x => some <$> (do r.div x (← r.sqrt (← r.sub Form.one (← r.square x))))
        | .call .acos x => some <$> (do r.div (← r.sqrt (← r.sub Form.one (← r.square x))) x)
        | _ => return none

def cotangentOf (r : Rules) (u : Form) (q : Rat) : Result (Option Form) := do
  if isWhole q then return some .unsigned
  else if q.den == 5 || q.den == 10 then
    some <$> (do r.call .tan (← multiple r (Rat.sub (mkRat 1 2) q)))
  else
    let double ← if 2 < q.den && q.den % 2 == 0 then both? r (twice q) else pure none
    match double with
    | some (c, s) => some <$> (do r.add (← r.inv s) (← r.div c s))
    | none =>
      match ← both? r (nearest q) with
      | some (c, s) => if s.isZero then return some .unsigned else some <$> r.div c s
      | none =>
        let w ← multiple r (nearest q)
        if w == u then return none else some <$> r.call .cot w

def cotangent (r : Rules) (u : Form) : Result (Option Form) := do
  match u with
  | .number .undefined | .unsigned => return some Form.undefined
  | .number (.infinite _) => return some (.foreign "AccumBounds" [])
  | u =>
    if u.isZero then return some .unsigned
    else if u.leansNegative then
      let v ← r.call .cot (← r.neg u)
      some <$> r.neg v
    else
      match ← turn? r u with
      | some (.other v) => if v == u then return none else some <$> r.call .cot v
      | some (.exact q) => cotangentOf r u q
      | none =>
        match u with
        | .sum us =>
          match ← peel? r us with
          | some (x, m) =>
            if isWhole m then some <$> r.call .cot x
            else some <$> (do r.neg (← r.call .tan x))
          | none => return none
        | .call .atan x => some <$> r.inv x
        | .call .asin x => some <$> (do r.div (← r.sqrt (← r.sub Form.one (← r.square x))) x)
        | .call .acos x => some <$> (do r.div x (← r.sqrt (← r.sub Form.one (← r.square x))))
        | _ => return none

/-- The reciprocal of a sine or cosine under its own name. -/
def reciprocal (r : Rules) (v : Form) : Result Form :=
  match v with
  | .call .cos x => r.call .sec x
  | .call .sin x => r.call .csc x
  | .product [.number (.exact q), .call .cos x] =>
    if q == Rat.ofInt (-1) then do r.neg (← r.call .sec x) else r.inv v
  | .product [.number (.exact q), .call .sin x] =>
    if q == Rat.ofInt (-1) then do r.neg (← r.call .csc x) else r.inv v
  | v => r.inv v

def reciprocal? (r : Rules) (op : UnaryOp) (u : Form) : Result (Option Form) := do
  let even := op == .sec
  if u.leansNegative then
    let v ← r.call op (← r.neg u)
    if even then return some v else some <$> r.neg v
  else
    let q? := match ← turn? r u with
      | some (.exact q) => if isWhole (twice q) then none else some q
      | _ => none
    match q? with
    | some q =>
      let p := (q.num % (2 * q.den : Int)).toNat
      if q.den < p then
        let v ← r.call op (← multiple r (Rat.sub q (Rat.ofInt 1)))
        some <$> r.neg v
      else if q.den < 2 * p then
        let v ← r.call op (← multiple r (Rat.sub (Rat.ofInt 1) q))
        if even then some <$> r.neg v else return some v
      else known
    | none => known
where
  known : Result (Option Form) := do
    match ← (if op == .sec then cosine r u else sine? r u) with
    | none => return none
    | some v => some <$> reciprocal r v

end Fluxion.Algebra.Angle
