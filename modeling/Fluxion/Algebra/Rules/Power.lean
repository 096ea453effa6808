/-
Powers: exact numbers to whole powers are numbers, perfect roots are
taken and what a root leaves is a root of a smaller number, powers of
powers are joined where that holds for every value of the symbols, and the
power of a product is taken apart where its factors allow it.
-/
import Fluxion.Algebra.Integer
import Fluxion.Algebra.Rules.Basic
import Fluxion.Algebra.Written

namespace Fluxion.Algebra.Power

/-! ## Exact numbers -/

/-- A root being taken: whole factors that came out, finished roots, and
primes with the exponents that remain under the root. -/
structure Radical where
  whole : Nat
  roots : List (Nat × Rat)
  inside : List (Nat × Nat)

/-- The root of index `q` of the `p`-th power of a number given by its
divisors. -/
def radical (p q : Nat) (divisors : List (Nat × Nat)) : Radical :=
  divisors.foldl
    (fun s d =>
      let k := d.2 * p
      let s := { s with whole := s.whole * Nat.pow d.1 (k / q) }
      let rest := k % q
      if rest == 0 then s
      else
        let g := Nat.gcd rest q
        if g == 1 then { s with inside := s.inside ++ [(d.1, rest)] }
        else { s with roots := s.roots ++ [(d.1, mkRat (rest / g : Nat) (q / g))] })
    ⟨1, [], []⟩

/-- A positive number to a positive exponent that is not whole. -/
def ofNatural (r : Rules) (n : Nat) (e : Rat) : Result (Option Form) :=
  let p := e.num.natAbs
  let q := e.den
  match Integer.root? n q with
  | some k => .ok (some (Form.int (Nat.pow k p : Nat)))
  | none =>
    let divisors := match Integer.perfectPower? n with
      | some d => [d]
      | none => Integer.divisors n
    let s := radical p q divisors
    let shared := s.inside.foldl (fun g d => Nat.gcd g d.2) 0
    let inside := s.inside.foldl (fun m d => m * Nat.pow d.1 (d.2 / shared)) 1
    if inside == n && s.whole == 1 && s.roots.isEmpty then .ok none
    else do
      let roots ← s.roots.mapM fun d => r.power (Form.int d.1) (Form.rational d.2)
      let rest ← if inside == 1 then pure Form.one
        else r.power (Form.int inside) (Form.ratio shared q)
      some <$> r.product (Form.int s.whole :: roots ++ [rest])

def ofMinusOne (r : Rules) (e : Rat) : Result (Option Form) :=
  if e.den == 1 then .ok (some (if e.num % 2 == 0 then Form.one else Form.minusOne))
  else if e == mkRat 1 2 then .ok (some .imaginary)
  else if e.den == 2 then some <$> r.power .imaginary (Form.int e.num)
  else
    let k := e.floor
    if k == 0 then .ok none
    else do
      let s ← r.power Form.minusOne (Form.int k)
      let p ← r.power Form.minusOne (Form.rational (Rat.sub e (Rat.ofInt k)))
      some <$> r.product [s, p]

/-- A whole number other than zero and one to a rational power. -/
def ofWhole (r : Rules) (n : Int) (e : Rat) : Result (Option Form) :=
  let x := Form.rational e
  if n < 0 && e == mkRat 1 2 then do
    let p ← r.power (Form.int (-n)) x
    some <$> r.product [.imaginary, p]
  else if e.num < 0 then do
    let p ← r.power (Form.ratio 1 n.natAbs) (Form.rational (Rat.neg e))
    if n < 0 then
      let s ← r.power Form.minusOne x
      some <$> r.product [s, p]
    else return some p
  else do
    match ← ofNatural r n.natAbs e with
    | none => return none
    | some p =>
      if n < 0 then
        let s ← r.power Form.minusOne x
        some <$> r.product [p, s]
      else return some p

/-- A fraction to a rational power: the denominator is made rational. -/
def ofFraction (r : Rules) (b e : Rat) : Result (Option Form) :=
  if e.num < 0 then
    let ne := Rat.neg e
    if b.num < 0 then do
      let s ← r.power Form.minusOne (Form.rational e)
      let p ← r.power (Form.rational (mkRat b.den b.num.natAbs)) (Form.rational ne)
      some <$> r.product [s, p]
    else some <$> r.power (Form.rational (mkRat b.den b.num.natAbs)) (Form.rational ne)
  else if e.den == 1 then
    let k := e.num.toNat
    .ok (some (Form.rational (mkRat (Int.pow b.num k) (Nat.pow b.den k))))
  else do
    let k := e.floor.toNat + 1
    let rest := Form.rational (Rat.sub (Rat.ofInt k) e)
    let q ← r.power (Form.int b.den) rest
    let last := Form.ratio 1 (Nat.pow b.den k)
    if b.num == 1 then some <$> r.product [q, last]
    else
      let p ← r.power (Form.int b.num) (Form.rational e)
      some <$> r.product [p, q, last]

def ofExact (r : Rules) (b e : Rat) : Result (Option Form) :=
  if b.den != 1 then ofFraction r b e
  else if b.num == 0 then .ok (some (if e.num < 0 then .unsigned else Form.zero))
  else if b.num == 1 then .ok (some Form.one)
  else if b.num == -1 then ofMinusOne r e
  else ofWhole r b.num e

/-! ## Other numbers -/

def ofFloat (r : Rules) (x : Binary) (e : Number) : Result (Option Form) :=
  if x.isZero then
    if e.isPositive then .ok (some (.number (.approximate x)))
    else if e.isNegative then .ok (some .unsigned)
    else .ok none
  else
    match e.int? with
    | some k => .ok (some (.number (.float (x.powInt k))))
    | none =>
      let y := e.toBinary x.precision
      if !e.isFinite then .ok none
      else if !x.isNegative then .ok (some (.number (.float (x.pow y))))
      else if y.isInteger then .ok (some (.number (.float (x.powInt (Double.toInt y.toFloat)))))
      else
        match e with
        | .exact q =>
          if q.num == 1 && q.den % 2 == 1 then
            some <$> r.product [.power Form.minusOne (.number e), .number (.float (x.neg.pow y))]
          else complex y
        | _ => complex y
where
  complex (y : Binary) : Result (Option Form) := do
    let z := (Complex.ofReal x.toFloat).pow (.ofReal y.toFloat)
    let part (v : Float) : Form := .number (.float ((Binary.ofFloat v).rounded x.precision))
    let im ← r.product [part z.im, .imaginary]
    some <$> r.sum [part z.re, im]

def ofInfinite (r : Rules) (negative : Bool) (e : Form) : Result (Option Form) :=
  if !negative then
    if e.isPositive then .ok (some (.number (.infinite false)))
    else if e.isNegative then .ok (some Form.zero)
    else .ok none
  else
    match e with
    | .number (.infinite _) => .ok (some Form.undefined)
    | e =>
      match e.int? with
      | some k =>
        if 0 < k then .ok (some (.number (.infinite (k % 2 != 0)))) else .ok (some Form.zero)
      | none =>
        if e.isNumeric then do
          let size ← r.power (.number (.infinite false)) e
          let s ← r.power Form.minusOne e
          some <$> (if size.isZero then pure size else r.product [s, size])
        else .ok none

/-- Zero to a power that is not zero; a number in front of a symbolic
exponent only tells its sign. -/
def ofZero (r : Rules) (e : Form) : Result (Option Form) :=
  if e.isPositive then .ok (some Form.zero)
  else if e.isNegative then .ok (some .unsigned)
  else if e.real? == some false then .ok (some Form.undefined)
  else
    let c := e.coefficient
    if c.1.isNegative then some <$> r.power .unsigned c.2
    else if c.1 == .one then .ok none
    else some <$> r.power Form.zero c.2

def ofUnsigned (e : Form) : Option Form :=
  match e with
  | .number a =>
    if a.isZero then some Form.undefined
    else if a.isPositive then some .unsigned
    else some Form.zero
  | .unsigned => some Form.undefined
  | _ => none

def ofImaginary (e : Form) : Option Form :=
  match e.rat? with
  | none => none
  | some q =>
    if q.den == 1 then
      match q.num % 4 with
      | 0 => some Form.one
      | 1 => some .imaginary
      | 2 => some Form.minusOne
      | _ => some (.product [Form.minusOne, .imaginary])
    else
      let rest := Number.modulo q (Rat.ofInt 2)
      let k := (Rat.div q (Rat.ofInt 2)).floor
      let p := Form.power .imaginary (Form.rational rest)
      some (if k % 2 == 0 then p else .product [Form.minusOne, p])

def ofNumber (r : Rules) (b : Number) (e : Form) : Result (Option Form) :=
  match b, e with
  | .undefined, _ => .ok (some Form.undefined)
  | .infinite negative, e => ofInfinite r negative e
  | .exact x, e =>
    if x.num == 0 then ofZero r e
    else
      match e with
      | .number (.exact y) => ofExact r x y
      | .number (.approximate y) =>
        some <$> r.power (.number (.approximate (.ofRat y.precision x))) e
      | .number (.infinite true) =>
        if 0 < x.num then some <$> r.power (Form.rational (Rat.inv x)) (.number (.infinite false))
        else .ok none
      | _ => .ok none
  | .approximate x, .number y => ofFloat r x y
  | .approximate _, _ => .ok none

/-! ## Powers of powers, products and sums -/

/-- Half of an odd number. -/
def isHalf (e : Form) : Bool :=
  match e.rat? with
  | some q => q.den == 2
  | none => false

/-- A power to a power. Exponents are multiplied if the outer one is
whole, if the inner one is below one in size, or if the base is not
negative. -/
def ofPower (r : Rules) (b e x : Form) : Result (Option Form) :=
  let joined (s : List Form) (base : Form) : Result (Option Form) := do
    let k ← r.mul e x
    let p ← r.power base k
    match s with
    | [] => return some p
    | s => some <$> r.product (s ++ [p])
  if x.int?.isSome then joined [] b
  else if e.real? != some true then .ok none
  else if e == Form.minusOne && isHalf x && b.isNumeric then
    if b.isNegative then do
      let c ← r.neg b
      let s ← r.power Form.minusOne x
      joined [s] c
    else joined [] b
  else do
    let even := match e.int? with | some k => k % 2 == 0 | none => false
    let base ← if even && b.isNegative then r.neg b else pure b
    let small := match e.realValue? with | some y => y.abs < 1.0 | none => false
    if small || base.isNonnegative then joined [] base
    else
      match e.rat?, x.rat? with
      | some y, some z =>
        if base.isNegative && z.den == 2 then
          let turns := (Rat.sub (mkRat 1 2) (Rat.div y (Rat.ofInt 2))).floor * z.num
          joined (if turns % 2 == 0 then [] else [Form.minusOne]) base
        else return none
      | _, _ => return none

/-- The factors of a base by sign: known not to be negative, known not to
be positive or not to be real, and all others. -/
def bySign (us : List Form) : List Form × List Form × List Form :=
  us.foldl
    (fun acc u =>
      match u.real? with
      | some true =>
        if u.isNegative then (acc.1, acc.2.1 ++ [u], acc.2.2) else (acc.1 ++ [u], acc.2.1, acc.2.2)
      | some false =>
        if u == .imaginary then (acc.1, acc.2.1, acc.2.2 ++ [u])
        else (acc.1, acc.2.1 ++ [u], acc.2.2)
      | none => (acc.1, acc.2.1, acc.2.2 ++ [u]))
    ([], [], [])

/-- The factors that leave a base by themselves, and those that stay under
the power together. -/
def separate (us : List Form) : List Form × List Form :=
  let s := bySign us
  match s.2.1 with
  | [] => (s.1, s.2.2)
  | [n] =>
    match s.2.2, n with
    | [], n => (s.1, [n])
    | other, .number a =>
      if a == .minusOne then (s.1, other ++ [n])
      else (s.1 ++ [.number a.neg], other ++ [Form.minusOne])
    | other, n => (s.1, other ++ [n])
  | ns =>
    let odd := ns.length % 2 == 1
    (s.1 ++ ns.map Form.negated, if odd then s.2.2 ++ [Form.minusOne] else s.2.2)

def ofProduct (r : Rules) (us : List Form) (e : Form) : Result (Option Form) :=
  if e.int?.isSome then some <$> r.product (us.map fun u => .power u e)
  else
    match e with
    | .number a =>
      if a.isFinite then do
        let s := separate us
        let isRoot (u : Form) : Bool :=
          match u with | .power b f => f.isExact && b.isNumeric | _ => false
        let apart ← s.1.mapM fun u =>
          if e.isExact && isRoot u then r.power u e else pure (.power u e)
        let rest ← match s.2 with
          | [] => pure []
          | other => do
            let b ← r.product other
            pure [Form.power b e]
        some <$> r.product (apart ++ rest)
      else .ok none
    | _ => .ok none

/-- A sum with floating point coefficients to a power: the largest
coefficient is taken out. -/
def ofSum (r : Rules) (us : List Form) (e : Form) : Result (Option Form) :=
  match e with
  | .number a =>
    if !a.isFinite || a.abs == .one then .ok none
    else
      let cs := us.map Form.coefficient
      let isFloat (c : Number) : Bool := match c with | .approximate _ => true | _ => false
      if cs.any fun c => isFloat c.1 then
        let big := cs.foldl (fun (m : Number) c => if c.1.abs.lt m then m else c.1.abs) Number.zero
        if (big.sub .one).isZero then .ok none
        else do
          let terms ← cs.mapM fun c =>
            let k := if c.1.abs == big then (if c.1.isNegative then .minusOne else Number.one)
              else c.1.div big
            r.product [.number k, c.2]
          let s ← r.sum terms
          let p ← r.power s e
          let q ← r.power (.number big) e
          some <$> r.product [q, p]
      else .ok none
  | _ => .ok none

/-! ## The rule -/

/-- The numerator of an exponent whose denominator is the logarithm of the
base: `b^(n / log b)` is `e^n`. -/
def overLog (b e : Form) : Option (List Form) :=
  let bottom := Form.power (.call .ln b) Form.minusOne
  let fs := e.factors
  if fs.any (· == bottom) && !(b == .constant .e) then some (fs.filter fun f => !(f == bottom))
  else none

def atInfinity (b : Form) : Option Form :=
  match b with
  | .number (.infinite negative) =>
    some (if negative then Form.undefined else .number (.infinite false))
  | b =>
    match b.realValue? with
    | none => none
    | some x =>
      if 1.0 < x then some (.number (.infinite false))
      else if -1.0 < x && x < 1.0 then some Form.zero
      else if x ≤ -1.0 then some .unsigned
      else none

/-- What a base does to an exponent that is neither zero nor one. -/
def byBase (r : Rules) (b e : Form) : Result (Option Form) :=
  match b with
  | .number a => ofNumber r a e
  | .unsigned => .ok (ofUnsigned e)
  | .constant .e => some <$> r.call .exp e
  | .imaginary => .ok (ofImaginary e)
  | .power c f => ofPower r c f e
  | .call .exp u => ofPower r (.constant .e) u e
  | .product us => ofProduct r us e
  | .sum us => ofSum r us e
  | .truth _ => .error .noAlgebra
  | _ => .ok none

def isUndefined (u : Form) : Bool := u == Form.undefined

/-- A base that takes a sign out of whole powers. -/
def isSigned (b : Form) : Bool :=
  (b.isNumber || (b.isProduct && b.isNumeric)) && b.leansNegative

def rule (r : Rules) (b e : Form) : Result Form :=
  match b, e with
  | .relate _ _ _, _ | _, .relate _ _ _ => .error .mixedLogic
  | b, e =>
    if e == .unsigned then .ok Form.undefined
    else
      match if e == .number (.infinite false) then atInfinity b else none with
      | some v => .ok v
      | none =>
        if e == Form.zero then .ok Form.one
        else if e == Form.one then .ok b
        else if e == Form.minusOne && b.isZero then .ok .unsigned
        else do
          match if isSigned b then e.int? else none with
          | some k =>
            let c ← r.neg b
            let p ← r.power c e
            if k % 2 == 0 then return p else r.neg p
          | none =>
            if isUndefined b || isUndefined e then return Form.undefined
            else if b == Form.one then
              return if e.isInfinite then Form.undefined else Form.one
            else
              match overLog b e with
              | some fs =>
                let u ← r.product fs
                r.power (.constant .e) u
              | none =>
                match ← byBase r b e with
                | some v => return v
                | none => return .power b e

end Fluxion.Algebra.Power
