/-
Making forms by the name of their kind: symbols, numbers from texts,
choices, tuples, matrices, anonymous functions, and operations that are
left open until they are carried out.
-/
import Fluxion.Algebra.Coefficient
import Fluxion.Algebra.Reading.Operation
import Fluxion.Algebra.Token

namespace Fluxion.Algebra.Reading

abbrev Named := List (String × Reading)

def named? (named : Named) (x : String) : Option Reading :=
  (named.find? fun p => p.1 == x).map Prod.snd

def isInert (named : Named) : Result Bool :=
  match named? named "evaluate" with
  | none | some .nothing => .ok false
  | some a => do return !(← a.isTrue)

def symbol? : Reading → Option String
  | .form (.symbol x) => some x
  | _ => none

/-! ## Numbers from texts -/

/-- An exact number as it is written: a fraction of decimals. -/
def fraction? (s : String) : Option Rat :=
  let part (cs : List Char) : Option Rat :=
    let signed := Decimal.takeSign (Text.trimmed cs)
    (Literal.ofDecimal? signed.2).map fun n =>
      if signed.1 then Rat.neg n.toRat else n.toRat
  let cs := Text.withPlainDigits (s.toList.filter fun c => c != ' ')
  let above := cs.takeWhile fun c => c != '/'
  match cs.drop above.length with
  | [] => part above
  | _ :: below => do
    let p ← part above
    let q ← part below
    if q.num == 0 then none else some (Rat.div p q)

/-- A decimal with the precision of its digits. -/
def decimal? (digits : Option Nat) (s : String) : Option Form :=
  let signed := Decimal.takeSign (Text.trimmed (Text.withPlainDigits s.toList))
  match Literal.ofDecimal? signed.2 with
  | some n =>
    let q := if signed.1 then Rat.neg n.toRat else n.toRat
    let kept : Nat := match digits with
      | some d => d
      | none => n.digitsKept
    some (.number (.approximate (.ofRat (Binary.bitsFor kept) q)))
  | none =>
    match String.ofList (signed.2.map Char.toLower) with
    | "inf" | "oo" => some (.number (.infinite signed.1))
    | "nan" => some Form.undefined
    | _ => none

/-- A floating point number to a number of digits, fifteen where none is
given. -/
def floatOf (read : Read) (a : Reading) (digits : Option Nat) : Result Form :=
  match a with
  | .text s =>
    match decimal? digits s with
    | some u => .ok u
    | none => .error .outsideDomain
  | .flag _ | .nothing => .error .mixedLogic
  | a => do
    let u ← argument read a
    match u with
    | .number (.approximate x) =>
      return .number (.approximate (match digits with
        | some d => x.rounded (Binary.bitsFor d)
        | none => x))
    | .number (.infinite _) | .number .undefined => return u
    | u =>
      if u.realValue?.isSome then Library.numeric (digits.getD 15) u else throw .mixedLogic

/-- A whole number: a number without its fraction, or a text of digits. -/
def integerOf (a : Reading) : Result Form :=
  match a with
  | .flag b => .ok (Form.int (if b then 1 else 0))
  | .text s =>
    let signed := Decimal.takeSign (Text.withPlainDigits (s.toList.filter fun c => c != ' '))
    match Literal.takeBased 10 signed.2 with
    | ([], _) => .error .outsideDomain
    | (ds, []) =>
      let n : Int := Literal.digitsValue 10 ds
      .ok (Form.int (if signed.1 then -n else n))
    | _ => .error .outsideDomain
  | .form u =>
    if u == Form.undefined then .error .outsideDomain
    else if u.isInfinite then .error .integerTooLarge
    else
      match if u.names.isEmpty then Library.whole? u else none with
      | some n => .ok (Form.int n)
      | none => .error .mixedLogic
  | _ => .error .mixedLogic

def rationalOf (args : List Reading) : Result Form := do
  let us ← args.mapM fun a => match a with
    | .text s =>
      match fraction? s with
      | some q => .ok (Form.rational q)
      | none => .error .mixedLogic
    | .flag _ => .error .mixedLogic
    | a => strictArgument a
  Library.rational us

/-! ## Symbols -/

/-- The names in a text, separated by commas or blanks. -/
def namesIn (s : String) : List String :=
  ((s.toList.splitBy fun a b =>
      (a == ',' || Text.isBlank a) == (b == ',' || Text.isBlank b)).filter fun cs =>
    cs.all fun c => !(c == ',' || Text.isBlank c)).map String.ofList

/-- The names in a range, such as `x2:5` for `x2`, `x3` and `x4`, or `a:c`
for `a`, `b` and `c`. A range of numbers without a start begins at zero, one
of letters at `a`, and only the latter has its end in it. -/
def ranged? (x : List Char) : Option (List String) :=
  let front := x.takeWhile fun c => c != ':'
  match x.drop front.length with
  | ':' :: stop =>
    let name (cs : List Char) (s : List Char) : String := String.ofList (cs ++ s)
    if !stop.isEmpty && stop.all Char.isDigit then
      let start := (front.reverse.takeWhile Char.isDigit).reverse
      let kept := front.take (front.length - start.length)
      let value (ds : List Char) : Nat := Literal.digitsValue 10 (ds.map fun c => c.toNat - 48)
      let first := value start
      let last := value stop
      some ((List.range (last - first)).map fun (k : Nat) => name kept (first + k).repr.toList)
    else
      match stop, front.reverse with
      | [z], kept =>
        let start := match kept with
          | c :: _ => if c.isAlpha then c else 'a'
          | [] => 'a'
        let kept := match kept with
          | c :: rest => if c.isAlpha then rest else kept
          | [] => []
        if z.isAlpha then
          some ((List.range (z.toNat + 1 - start.toNat)).map fun (k : Nat) =>
            name kept.reverse [Char.ofNat (start.toNat + k)])
        else none
      | _, _ => none
  | _ => none

def symbolsOf (a : Reading) : Result Reading :=
  match a with
  | .text s =>
    let one (x : String) : Reading := .form (.symbol x)
    let several := s.toList.contains ',' || s.toList.contains ':'
    match (namesIn s).flatMap fun x => (ranged? x.toList).getD [x] with
    | [] => if several then .ok (.tuple []) else .error .outsideDomain
    | [x] => .ok (if several then .tuple [one x] else one x)
    | xs => .ok (.tuple (xs.map one))
  | _ => .error .mixedLogic

/-! ## Choices, tuples and matrices -/

def pairs (read : Read) (args : List Reading) : Result (List (Form × Form)) :=
  args.mapM fun a => match a with
    | .tuple [v, c] => do return (← argument read v, ← argument read c)
    | _ => .error .mixedLogic

def choiceOf (read : Read) (inert : Bool) (args : List Reading) : Result Form := do
  let ps ← pairs read args
  if ps.isEmpty then throw .mixedLogic
  else if inert then
    let qs ← ps.mapM fun p => do return (p.1, ← Form.condition p.2)
    match Form.reachable qs with
    | [(v, .truth true)] => return v
    | qs => return .cases (qs.map Prod.fst) (qs.map Prod.snd)
  else Form.chosen ps

def row (us : List Form) : Form := .foreign "Tuple" us

/-- A matrix by its rows, which are of one length; a flat list is a
column. -/
def matrixOf (read : Read) (args : List Reading) : Result Form := do
  let rows ← match args with
    | [.list items] => items.mapM fun a => match a with
      | .list us | .tuple us => arguments read us
      | a => do return [← argument read a]
    | [m, n, .list items] =>
      match m.whole?, n.whole? with
      | some m, some n => do
        let us ← arguments read items
        if us.length == (m * n).toNat then
          pure ((List.range m.toNat).map fun i => (us.drop (i * n.toNat)).take n.toNat)
        else throw .outsideDomain
      | _, _ => throw .mixedLogic
    | _ => throw .mixedLogic
  if rows.all fun r => r.length == (rows.headD []).length then
    return .foreign "Matrix" (rows.map row)
  else throw .outsideDomain

def square (n : Nat) (f : Nat → Nat → Form) : Form :=
  .foreign "Matrix" ((List.range n).map fun i => row ((List.range n).map fun j => f i j))

/-- The determinant by its first row; `fuel` has to reach the number of
rows. -/
def determinant : (fuel : Nat) → List (List Form) → Result Form
  | 0, _ => .ok Form.one
  | fuel + 1, rows =>
    match rows with
    | [] => .ok Form.one
    | first :: rest => do
      let terms ← first.zipIdx.mapM fun p => do
        let minor ← determinant fuel (rest.map fun r => r.eraseIdx p.2)
        rules.product [Form.int (Counting.alternating p.2), p.1, minor]
      rules.sum terms

def trace (rows : List (List Form)) : Result Form :=
  rules.sum (rows.zipIdx.filterMap fun p => p.1[p.2]?)

/-! ## Open operations -/

def bounds (read : Read) (a : Reading) : Result (String × List Form) := do
  let ofItems (items : List Reading) : Result (String × List Form) := do
    match ← arguments read items with
    | .symbol x :: us => return (x, us)
    | _ => throw .outsideDomain
  match a with
  | .tuple items => ofItems items
  | a =>
    match ← argument read a with
    | .foreign "Tuple" us => ofItems (us.map .form)
    | .symbol x => return (x, [])
    | _ => throw .outsideDomain

/-- The symbol that an operation is about where none is named: the only one
that occurs. -/
def onlySymbol (u : Form) : Result String :=
  match u.names.eraseDups with
  | [x] => .ok x
  | _ => .error .outsideDomain

/-- The symbols of a derivative with the number of times each is taken. -/
def orders (read : Read) (args : List Reading) : Result (List (String × Nat)) :=
  args.foldlM
    (fun acc a => do
      match a, a.whole? with
      | .tuple [v, k], _ =>
        match ← argument read v, k.whole? with
        | .symbol x, some n =>
          if n < 0 then throw .outsideDomain else return acc ++ [(x, n.toNat)]
        | _, _ => throw .outsideDomain
      | _, some n =>
        match acc.reverse with
        | (x, _) :: rest =>
          if n < 0 then throw .outsideDomain else return rest.reverse ++ [(x, n.toNat)]
        | [] => throw .outsideDomain
      | a, none =>
        match ← argument read a with
        | .symbol x => return acc ++ [(x, 1)]
        | _ => throw .outsideDomain)
    []

def derivativeOf (read : Read) (args : List Reading) : Result Form := do
  match args with
  | [] => throw .mixedLogic
  | a :: rest =>
    let u ← argument read a
    if rest.isEmpty && u.names.isEmpty then return Form.zero
    else
      let os ← if rest.isEmpty then do pure [(← onlySymbol u, 1)] else orders read rest
      os.foldlM (fun v o => v.derivativeTimes o.1 o.2) u

def integralOver (u : Form) (b : String × List Form) : Result Form :=
  match b.2 with
  | [] => u.antiderivative b.1
  | [c] => do (← u.antiderivative b.1).replaced (.symbol b.1) c
  | [lower, upper] => u.definite b.1 lower upper
  | _ => .error .outsideDomain

def along (read : Read) (step : Form → String × List Form → Result Form) (args : List Reading) :
    Result Form := do
  match args with
  | [] => throw .mixedLogic
  | a :: rest =>
    let u ← argument read a
    let bs ← if rest.isEmpty then do pure [(← onlySymbol u, [])] else rest.mapM (bounds read)
    bs.foldlM step u

def ranged (operation : Form → String → Form → Form → Result Form) (u : Form)
    (b : String × List Form) : Result Form :=
  match b.2 with
  | [lower, upper] => operation u b.1 lower upper
  | _ => .error .outsideDomain

def opened (read : Read) (name : String) (args : List Reading) : Result Form :=
  along read (fun u b => .ok (.foreign name (u :: .symbol b.1 :: b.2))) args

def limitOf (read : Read) (args : List Reading) (named : Named) : Result Form := do
  match args with
  | u :: x :: a :: rest =>
    let side := (rest.head?).getD ((named? named "dir").getD (.text "+"))
    match ← argument read x with
    | .symbol x =>
      let f ← argument read u
      let point ← argument read a
      f.limit x point !(side == .text "-")
    | _ => throw .outsideDomain
  | _ => throw .mixedLogic

/-- Carries out the operations that stand open at the top of a form. -/
def carriedOut (u : Form) : Result Form :=
  match u with
  | .foreign "Derivative" [v, .symbol x] => v.derivative x
  | .foreign "Integral" (v :: .symbol x :: bs) => integralOver v (x, bs)
  | .foreign "Sum" (v :: .symbol x :: bs) => ranged Form.summed v (x, bs)
  | .foreign "Product" (v :: .symbol x :: bs) => ranged Form.multiplied v (x, bs)
  | .foreign "Limit" [v, .symbol x, a] => v.limit x a true
  | .foreign "Subs" [v, x, a] => v.replaced x a
  | .foreign "UnevaluatedExpr" [v] => .ok v
  | u => .ok u

mutual

/-- Carries out all operations that stand open, the inner ones first, and
combines what was left as it stood. -/
def settled : Form → Result Form
  | .sum us => do rules.sum (← settledAll us)
  | .product us => do rules.product (← settledAll us)
  | .power b e => do rules.power (← settled b) (← settled e)
  | .call op u => do rules.call op (← settled u)
  | .relate rel l r => do Form.related rel (← settled l) (← settled r)
  | .foreign f us => do
    let vs ← settledAll us
    match ← carriedOut (.foreign f vs) with
    | .foreign g ws => if Vocabulary.isFunction g then Library.apply g ws else return .foreign g ws
    | v => return v
  | u => .ok u

def settledAll : List Form → Result (List Form)
  | [] => .ok []
  | u :: us => do
    let v ← settled u
    let vs ← settledAll us
    return v :: vs

end

/-! ## By the name of the kind -/

def parameters (read : Read) (a : Reading) : Result (List Form) := do
  let us ← match a with
    | .tuple items => arguments read items
    | a => do pure [← argument read a]
  if us.all Form.isSymbol && us.length == (Library.distinct us).length then return us
  else throw .mixedLogic

def madeBy? (read : Read) (name : String) (args : List Reading) (named : Named) :
    Option (Result Reading) :=
  let form (r : Result Form) : Option (Result Reading) := some (Reading.form <$> r)
  match name, args with
  | "Symbol", [.text s] | "Dummy", [.text s] | "Wild", [.text s] => form (.ok (.symbol s))
  | "Symbol", _ | "Dummy", _ | "Wild", _ => form (.error .mixedLogic)
  | "Function", [.text s] => some (.ok (.function s))
  | "Function", _ => form (.error .mixedLogic)
  | "Integer", [a] => form (integerOf a)
  | "Integer", _ => form (.error .mixedLogic)
  | "Float", a :: rest =>
    let digits := ((rest.head?).getD ((named? named "dps").getD .nothing)).whole?.map Int.toNat
    form (floatOf read a digits)
  | "Float", [] => form (.error .mixedLogic)
  | "Rational", args => form (rationalOf args)
  | "Number", [.form (.number a)] => form (.ok (.number a))
  | "Number", [.text s] => form (floatOf read (.text s) none)
  | "Number", _ => form (.error .mixedLogic)
  | "Piecewise", args =>
    form (do choiceOf read (← isInert named) args)
  | "Tuple", args => form (do return row (← arguments read args))
  | "Matrix", args => form (matrixOf read args)
  | "Lambda", [p, body] =>
    form (do return .foreign "Lambda" ((← parameters read p) ++ [← argument read body]))
  | "Lambda", _ => form (.error .mixedLogic)
  | "Id", [a] => form (argument read a)
  | "Derivative", args => form (do
    match args with
    | [] => throw .mixedLogic
    | a :: rest =>
      let u ← argument read a
      let os ← if rest.isEmpty then do pure [(← onlySymbol u, 1)] else orders read rest
      return os.foldl (fun v o => (List.range o.2).foldl
        (fun v _ => .foreign "Derivative" [v, .symbol o.1]) v) u)
  | "Integral", args | "Sum", args | "Product", args => form (opened read name args)
  | "Limit", u :: x :: a :: _ => form (do
    return .foreign "Limit" [← argument read u, ← argument read x, ← argument read a])
  | _, _ => none

end Fluxion.Algebra.Reading
