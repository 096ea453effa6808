/-
Calling the names of the vocabulary. Kinds make forms; procedures compute
with numbers, transform forms, carry out the operations of calculus, and
handle lists and texts. A kind that nothing is known of makes a form under
its name.
-/
import Fluxion.Algebra.Complexity
import Fluxion.Algebra.Reading.Making
import Fluxion.Algebra.Simplest

namespace Fluxion.Algebra.Reading

/-! ## Lists, texts and whole numbers -/

def digitText (base n : Nat) : String := String.ofList (Nat.toDigits base n)

/-- A whole number in a base that letters announce. -/
def basedText (letters : String) (base : Nat) (n : Int) : Reading :=
  .text ((if n < 0 then "-" else "") ++ letters ++ digitText base n.natAbs)

def truths (a : Reading) : Result (List Bool) :=
  match a.items? with
  | some items => items.mapM isTrue
  | none => .error .mixedLogic

def folded (op : String) (start : Reading) (a : Reading) : Result Reading :=
  match a.items? with
  | some items => items.foldlM (combine op) start
  | none => .error .mixedLogic

def inserted (a : Reading) : List Reading → Result (List Reading)
  | [] => .ok [a]
  | b :: bs => do
    if ← (← compared "<" a b).isTrue then return a :: b :: bs
    else return b :: (← inserted a bs)

def increasing (items : List Reading) : Result (List Reading) :=
  items.foldlM (fun acc a => inserted a acc) []

def powerModulo (b e m : Int) : Result Form :=
  if m == 0 || e < 0 then .error .outsideDomain
  else
    let r := Counting.powMod m.natAbs (e.natAbs.log2 + 2) (b % m).toNat e.toNat
    let n : Int := r
    .ok (Form.int (if m < 0 && 0 < n then n + m else n))

def spelled : Reading → Option String
  | .form (.symbol x) => some x
  | .form u => u.int?.map fun n => (if n < 0 then "-" else "") ++ n.natAbs.repr
  | .text s => some s
  | .flag b => some (if b then "True" else "False")
  | .nothing => some "None"
  | _ => none

/-- Procedures on plain values. -/
def plain? (read : Read) (name : String) (args : List Reading) (named : Named) :
    Option (Result Reading) :=
  let flag (b : Bool) : Option (Result Reading) := some (.ok (.flag b))
  match name, args with
  | "len", [a] => some (match a with
    | .form (.foreign "Tuple" us) => .ok (.form (Form.int us.length))
    | .form _ => .error .mixedLogic
    | a => match a.items? with
      | some items => .ok (.form (Form.int items.length))
      | none => .error .mixedLogic)
  | "sum", [a] => some (folded "+" (.form Form.zero) a)
  | "sum", [a, start] => some (folded "+" start a)
  | "prod", [a] => some (folded "*" (.form Form.one) a)
  | "prod", [a, start] => some (folded "*" start a)
  | "all", [a] => some (do return .flag ((← truths a).all id))
  | "any", [a] => some (do return .flag ((← truths a).any id))
  | "sorted", [a] => some (match a.items? with
    | some items => do
      let sorted ← increasing items
      let turned ← match named? named "reverse" with
        | some r => r.isTrue
        | none => pure false
      return .list (if turned then sorted.reverse else sorted)
    | none => .error .mixedLogic)
  | "abs", [a] => some (match a with
    | .flag b => .ok (.form (Form.int (if b then 1 else 0)))
    | a => do return .form (← Library.apply "Abs" [← strictArgument a]))
  | "pow", [a, b] => some (combine "**" a b)
  | "pow", [a, b, m] => some (match a.whole?, b.whole?, m.whole? with
    | some a, some b, some m => Reading.form <$> powerModulo a b m
    | _, _, _ => .error .mixedLogic)
  | "divmod", [a, b] => some (do return .tuple [← combine "//" a b, ← combine "%" a b])
  | "round", [a] => some (do
    return .form (← Library.roundedTo none (← strictArgument a)))
  | "round", [a, n] => some (match n, n.whole? with
    | .nothing, _ => do return .form (← Library.roundedTo none (← strictArgument a))
    | _, some k => do return .form (← Library.roundedTo (some k) (← strictArgument a))
    | _, none => .error .mixedLogic)
  | "bin", [a] => some (match a.whole? with
    | some n => .ok (basedText "0b" 2 n)
    | none => .error .mixedLogic)
  | "oct", [a] => some (match a.whole? with
    | some n => .ok (basedText "0o" 8 n)
    | none => .error .mixedLogic)
  | "hex", [a] => some (match a.whole? with
    | some n => .ok (basedText "0x" 16 n)
    | none => .error .mixedLogic)
  | "chr", [a] => some (match a.whole? with
    | some n => if 0 ≤ n && n < 1114112 then .ok (.text (String.ofList [Char.ofNat n.toNat]))
      else .error .outsideDomain
    | none => .error .mixedLogic)
  | "ord", [.text s] => some (match s.toList with
    | [c] => .ok (.form (Form.int c.toNat))
    | _ => .error .mixedLogic)
  | "repr", [.text s] | "ascii", [.text s] => some (.ok (.text ("'" ++ s ++ "'")))
  | "repr", [a] | "ascii", [a] | "srepr", [a] | "sstr", [a] => some (match spelled a, a with
    | some s, _ => .ok (.text s)
    | none, a => .ok a)
  | "format", [a] => some (match spelled a with
    | some s => .ok (.text s)
    | none => .ok a)
  | "callable", [a] => flag (match a with
    | .callable _ | .function _ | .method _ _ => true
    | _ => false)
  | "isinstance", [_, _] | "issubclass", [_, _] | "hasattr", [_, _] => flag true
  | "print", _ | "pprint", _ => some (.ok .nothing)
  | "iter", [a] => some (match a.items? with
    | some _ => .ok (.object name)
    | none => .error .mixedLogic)
  | "S", [.text s] => some (read s)
  | "S", [.flag b] => some (.ok (.form (.truth b)))
  | "S", [a] => some (do check read a; return a)
  | "parse_expr", .text s :: _ => some (read s)
  | "symbols", [a] | "var", [a] => some (symbolsOf a)
  | "ZZ", [a] => some (Reading.form <$> integerOf a)
  | "QQ", args => some (Reading.form <$> rationalOf args)
  | "RR", [a] => some (Reading.form <$> floatOf read a none)
  | "CC", [a] => some (Reading.form <$> floatOf read a none)
  | "GF", [_] | "FF", [_] | "evaluate", [_] => some (.ok (.object name))
  | _, _ => none

/-! ## Number theory -/

/-- The greatest common divisor of forms, by cancelling their quotient. -/
def commonDivisor (u v : Form) : Result Form :=
  match u.int?, v.int? with
  | some m, some n => .ok (Form.int (Int.gcd m n : Nat))
  | _, _ => do
    if u.isZero then return v
    else if v.isZero then return u
    else
      let q ← (← rules.div u v).cancel
      let d ← q.fraction
      (← rules.div v d.2).cancel

def commonMultiple (u v : Form) : Result Form :=
  match u.int?, v.int? with
  | some m, some n => .ok (Form.int (Nat.lcm m.natAbs n.natAbs : Nat))
  | _, _ => do
    let g ← commonDivisor u v
    (← rules.div (← rules.mul u v) g).cancel

def listed (read : Read) (args : List Reading) : Result (List Form) :=
  match args with
  | [.list items] | [.tuple items] => arguments read items
  | a :: b :: _ => arguments read [a, b]
  | _ => .error .mixedLogic

/-- The inverse of a number modulo another one; `fuel` bounds the search. -/
def inverseModulo (a m : Nat) : (fuel : Nat) → Option Nat
  | 0 => none
  | fuel + 1 => if a * (fuel + 1) % m == 1 then some (fuel + 1) else inverseModulo a m fuel

def natural (a : Reading) : Result Nat :=
  match a.whole? with
  | some n => if n < 0 then .error .outsideDomain else .ok n.toNat
  | none => .error .outsideDomain

def ints (ns : List Nat) : List Reading := ns.map fun (n : Nat) => .form (Form.int n)

/-- Procedures of whole numbers. -/
def theory? (read : Read) (name : String) (args : List Reading) : Option (Result Reading) :=
  let int (r : Result Nat) : Option (Result Reading) :=
    some (do return .form (Form.int (← r : Nat)))
  match name, args with
  | "gcd", args => some (do
    return .form (← (← listed read args).foldlM commonDivisor Form.zero))
  | "lcm", args => some (do
    return .form (← (← listed read args).foldlM commonMultiple Form.one))
  | "igcd", args | "ilcm", args => some (do
    let ns ← args.mapM fun a => match a.whole? with
      | some n => .ok n.natAbs
      | none => .error .outsideDomain
    if ns.length < 2 then throw .mixedLogic
    else if name == "igcd" then return .form (Form.int (ns.foldl Nat.gcd 0 : Nat))
    else return .form (Form.int (ns.foldl Nat.lcm 1 : Nat)))
  | "isprime", [a] => some (match a.whole? with
    | some n => .ok (.flag (0 ≤ n && Counting.isPrime n.toNat))
    | none => .error .outsideDomain)
  | "prime", [a] => int (do
    let n ← natural a
    if n == 0 then throw .outsideDomain else return Counting.prime n)
  | "nextprime", [a] => some (match a with
    | .form u => match Library.floor? u with
      | some n => .ok (.form (Form.int (Counting.nextPrime n.toNat : Nat)))
      | none => .error .outsideDomain
    | _ => .error .outsideDomain)
  | "prevprime", [a] => int (do
    match Counting.previousPrime? (← natural a) with
    | some p => return p
    | none => throw .outsideDomain)
  | "primorial", [a] => int (do
    let n ← natural a
    if n == 0 then throw .outsideDomain else return Counting.primorial n)
  | "divisor_count", [a] => int (do return Counting.divisorSum (← natural a) 0)
  | "proper_divisor_count", [a] => int (do return Counting.divisorSum (← natural a) 0 - 1)
  | "npartitions", [a] => int (do return Counting.partitions (← natural a))
  | "divisors", [a] => some (do return .list (ints (Counting.divisorsOf (← natural a))))
  | "proper_divisors", [a] => some (do
    return .list (ints ((Counting.divisorsOf (← natural a)).dropLast)))
  | "primefactors", [a] => some (do
    return .list (ints ((Counting.factorization (← natural a)).map Prod.fst)))
  | "factorint", [a] => some (do
    let ps := Counting.factorization (← natural a)
    return .table (ints (ps.map Prod.fst)) (ints (ps.map Prod.snd)))
  | "mod_inverse", [a, m] => int (do
    let m ← natural m
    let a ← match a.whole? with
      | some n => pure (n % (m : Int)).toNat
      | none => throw .outsideDomain
    match inverseModulo a m m with
    | some k => return k
    | none => throw .outsideDomain)
  | "integer_nthroot", [a, n] => some (do
    let m ← natural a
    let k ← natural n
    if k == 0 then throw .outsideDomain
    else
      let r := Integer.rootFloor m k
      return .tuple [.form (Form.int r), .flag (Nat.pow r k == m)])
  | "trailing", [a] => int (do
    let n ← natural a
    return if n == 0 then 0 else (Integer.divideOut 2 (n.log2 + 1) n).1)
  | "multiplicity", [p, n] => int (do
    let p ← natural p
    let n ← natural n
    if p < 2 || n == 0 then throw .outsideDomain
    else return (Integer.divideOut p (n.log2 + 1) n).1)
  | _, _ => none

/-! ## Transforms of forms -/

/-- Transforms that leave the value as it is and are not told apart by
it. -/
def neutral : List String :=
  ["apart", "collect", "rcollect", "radsimp", "nsimplify", "signsimp", "sqrtdenest", "combsimp",
    "gammasimp", "exptrigsimp", "besselsimp", "kroneckersimp", "hyperexpand", "separatevars",
    "powdenest", "refine", "expand_mul", "expand_log", "expand_func", "expand_trig",
    "expand_complex", "expand_multinomial", "expand_power_base", "expand_power_exp",
    "piecewise_fold", "piecewise_exclusive", "horner", "factor_nc", "collect_const", "gcd_terms",
    "terms_gcd", "fu", "sqf", "unpolarify", "polarify", "nfloat"]

def degree (u : Form) (x : String) : Result Form := do
  match ← u.coefficients? x with
  | some cs =>
    if u.isZero then return .number (.infinite true)
    else return Form.int ((cs.length : Int) - 1)
  | none => throw .outsideDomain

/-- The quotient and the remainder of polynomials with the highest
coefficients first; `fuel` has to reach the length of the first. -/
def divided (g : List Form) : (fuel : Nat) → List Form → Result (List Form × List Form)
  | 0, f => .ok ([], f)
  | fuel + 1, f =>
    match f, g with
    | c :: _, d :: _ =>
      if f.length < g.length then .ok ([], f)
      else do
        let q ← rules.div c d
        let sub ← (f.zip (g ++ List.replicate (f.length - g.length) Form.zero)).mapM fun p => do
          (← rules.sub p.1 (← rules.mul q p.2)).expand
        let (qs, r) ← divided g fuel (sub.drop 1)
        return (q :: qs, r)
    | _, _ => .ok ([], f)

/-- A polynomial by its coefficients, the highest first. -/
def polynomial (x : String) (cs : List Form) : Result Form := do
  let terms ← cs.reverse.zipIdx.mapM fun p => do
    rules.mul p.1 (← rules.power (.symbol x) (Form.int p.2))
  rules.sum terms

def division (u v : Form) (x? : Option String) : Result (Form × Form) := do
  let x := x?.getD (((u.names ++ v.names).mergeSort fun a b =>
    Form.compareText a b != .gt).headD "x")
  match ← u.coefficients? x, ← v.coefficients? x with
  | some cs, some ds =>
    if v.isZero then throw .zeroDivision
    else
      let (q, r) ← divided ds.reverse (cs.length + 1) cs.reverse
      return (← polynomial x q, ← polynomial x r)
  | _, _ => throw .outsideDomain

/-- Taylor's polynomial with the order of what is left out, if anything
is. -/
def taylor (u : Form) (x : String) (a : Form) (n : Nat) : Result Form := do
  let shift ← rules.sub (.symbol x) a
  let terms ← (List.range n).mapM fun (k : Nat) => do
    let d ← u.derivativeTimes x k
    let c ← rules.div (← d.limit x a true) (Form.int (Integer.factorial k : Nat))
    rules.mul c (← rules.power shift (Form.int k))
  let rest ← u.derivativeTimes x n
  let rest ← rest.expand
  if rest.isZero then rules.sum terms
  else rules.sum (terms ++ [.foreign "Order" [← rules.power shift (Form.int n)]])

/-- What an equation says is zero. -/
def difference : Form → Result Form
  | .relate .eq l r => rules.sub l r
  | u => .ok u

def algebra? (read : Read) (name : String) (args : List Reading) : Option (Result Reading) :=
  let form (r : Result Form) : Option (Result Reading) := some (Reading.form <$> r)
  match name, args with
  | "N", [a] => form (do Library.numeric 15 (← argument read a))
  | "N", a :: n :: _ => form (do Library.numeric (← natural n) (← argument read a))
  | "numer", [a] => form (do return (← (← argument read a).fraction).1)
  | "denom", [a] => form (do return (← (← argument read a).fraction).2)
  | "fraction", [a] => some (do
    let f ← (← argument read a).fraction
    return .tuple [.form f.1, .form f.2])
  | "deg", [a] => form (do rules.product [Form.int 180, ← rules.inv Form.pi, ← argument read a])
  | "rad", [a] => form (do rules.product [Form.ratio 1 180, Form.pi, ← argument read a])
  | "real_root", [a] => form (argument read a)
  | "real_root", [a, n] => form (do
    let u ← argument read a
    match n.whole? with
    | some k =>
      if u.isNegative && k % 2 == 1 then
        rules.neg (← rules.power (← rules.neg u) (Form.rational (mkRat 1 k.natAbs)))
      else if u.isNumeric then rules.power u (← rules.inv (Form.int k))
      else return .foreign name [u]
    | none => throw .mixedLogic)
  | "count_ops", a :: _ => form (do
    return Form.int (← (← argument read a).operations : Nat))
  | "degree", a :: rest => form (do
    let u ← argument read a
    let x ← match rest.head?.bind symbol? with
      | some x => pure x
      | none => if u.names.isEmpty then pure "x" else onlySymbol u
    degree u x)
  | "div", a :: b :: rest => some (do
    let r ← division (← argument read a) (← argument read b) (rest.head?.bind symbol?)
    return .tuple [.form r.1, .form r.2])
  | "quo", a :: b :: rest => form (do
    return (← division (← argument read a) (← argument read b) (rest.head?.bind symbol?)).1)
  | "rem", a :: b :: rest => form (do
    return (← division (← argument read a) (← argument read b) (rest.head?.bind symbol?)).2)
  | "LC", a :: rest => form (do
    let u ← argument read a
    let x ← match rest.head?.bind symbol? with
      | some x => pure x
      | none => onlySymbol u
    return ((← u.coefficients? x).getD [u]).getLastD u)
  | "det", [.form m] => form (match rows? m with
    | some rows => determinant (rows.length + 1) rows
    | none => .ok (.foreign "Determinant" [m]))
  | "trace", [.form m] => form (match rows? m with
    | some rows => trace rows
    | none => .ok (.foreign "Trace" [m]))
  | "eye", [n] => form (do
    return square (← natural n) fun i j => if i == j then Form.one else Form.zero)
  | "zeros", [n] => form (do return square (← natural n) fun _ _ => Form.zero)
  | "ones", [n] => form (do return square (← natural n) fun _ _ => Form.one)
  | "diag", args => form (do
    let us ← arguments read args
    return square us.length fun i j => if i == j then us[i]?.getD Form.zero else Form.zero)
  | name, a :: _ =>
    match transformNamed? name with
    | some f => form (do
      let u ← argument read a
      if u.isLogical && name != "simplify" then return u else f u)
    | none => if neutral.contains name then form (argument read a) else none
  | _, _ => none

/-! ## Calculus -/

def calculus? (read : Read) (name : String) (args : List Reading) (named : Named) :
    Option (Result Reading) :=
  let form (r : Result Form) : Option (Result Reading) := some (Reading.form <$> r)
  match name, args with
  | "diff", args => form (derivativeOf read args)
  | "integrate", args => form (along read integralOver args)
  | "limit", args => form (limitOf read args named)
  | "summation", args => form (along read (ranged Form.summed) args)
  | "product", args => form (along read (ranged Form.multiplied) args)
  | "series", a :: rest => form (do
    let u ← argument read a
    let at? (k : Nat) (x : String) : Option Reading := (rest[k]?).or (named? named x)
    let x ← match (at? 0 "x").bind symbol? with
      | some x => pure x
      | none => onlySymbol u
    let point ← match at? 1 "x0" with
      | some p => argument read p
      | none => pure Form.zero
    let n ← match at? 2 "n" with
      | some k => natural k
      | none => pure 6
    taylor u x point n)
  | "solve", a :: rest => some (do
    let u ← difference (← argument read a)
    let x ← match rest.head? with
      | some (.list [v]) | some v =>
        match ← argument read v with
        | .symbol x => pure x
        | _ => throw .outsideDomain
      | none => onlySymbol u
    return .list ((← u.roots x).map .form))
  | "roots", a :: _ => some (do
    let u ← argument read a
    let rs ← u.roots (← onlySymbol u)
    return .table (rs.map .form) (rs.map fun _ => .form Form.one))
  | "real_roots", [a] | "all_roots", [a] | "nroots", [a] => some (do
    let u ← argument read a
    return .list ((← u.roots (← onlySymbol u)).map .form))
  | _, _ => none

/-! ## All names -/

/-- Kinds whose arguments must not be texts. -/
def isStrict (name : String) : Bool :=
  (Vocabulary.relation? name).isSome ||
    ["Add", "Mul", "Pow", "sqrt", "cbrt", "root", "And", "Or", "Not", "Xor", "Nand", "Nor",
      "Implies", "Equivalent", "ITE"].contains name

/-- Whether a name takes an argument that leaves it as it stands. -/
def mayBeInert (name : String) : Bool :=
  Vocabulary.isFunction name || isStrict name

/-- Procedures that are known at every number of arguments they take. -/
def hasFixedArity (name : String) : Bool :=
  ["len", "sum", "prod", "all", "any", "sorted", "abs", "pow", "divmod", "round", "bin", "oct",
    "hex", "chr", "ord", "repr", "ascii", "callable", "isinstance", "issubclass", "hasattr", "S",
    "symbols", "var", "isprime", "prime", "prevprime", "primorial", "npartitions", "primefactors",
    "mod_inverse", "integer_nthroot", "trailing", "multiplicity", "numer", "denom", "fraction",
    "deg", "rad", "real_root", "det", "trace", "ZZ"].contains name

def mayBeBare (name : String) : Bool :=
  ["print", "dir", "globals", "locals", "vars", "input", "breakpoint", "diag", "init_printing",
    "init_session", "test", "doctest", "numbered_symbols", "plot"].contains name ||
    Vocabulary.classes.contains name

def applied (read : Read) (name : String) (args : List Reading) (named : Named) :
    Result Reading := do
  if mayBeInert name then
    let inert ← isInert named
    let us ← if isStrict name then args.mapM strictArgument else arguments read args
    if named.any fun p => p.1 != "evaluate" then
      throw (if Vocabulary.isFunction name then .outsideDomain else .mixedLogic)
    else if inert then return .form (Library.applyInert name us)
    else return .form (← Library.apply name us)
  else
    -- a kind or a procedure of which nothing is known
    let us := args.filterMap fun a => match a with
      | .form u => some u
      | _ => none
    if Vocabulary.isKind name then return .form (.foreign name us)
    else if hasFixedArity name || (args.isEmpty && !mayBeBare name) then throw .mixedLogic
    else return .form (.foreign "Open" us)

def call (read : Read) (name : String) (args : List Reading) (named : Named) : Result Reading :=
  let word := if name == "abs" then name else Vocabulary.standardName name
  match madeBy? read word args named with
  | some r => r
  | none =>
    if Vocabulary.isKind word then applied read word args named
    else
      match plain? read word args named with
      | some r => r
      | none =>
        match theory? read word args with
        | some r => r
        | none =>
          match calculus? read word args named with
          | some r => r
          | none =>
            match algebra? read word args with
            | some r => r
            | none => applied read word args named

end Fluxion.Algebra.Reading
