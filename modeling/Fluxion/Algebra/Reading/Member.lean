/-
Members behind a point: the parts of a form and what is known of it, the
constants of the registry, and methods, which are called with what stands
in front of the point as their first argument.
-/
import Fluxion.Algebra.Reading.Call

namespace Fluxion.Algebra.Reading

/-! ## Members of forms -/

/-- The name of the kind that makes a form. -/
def kindOf (u : Form) : String :=
  match u with
  | .number (.exact q) => if q.den == 1 then "Integer" else "Rational"
  | u => u.title

/-- What is known of a form: yes, no, or neither. -/
def known (b : Option Bool) : Reading :=
  match b with
  | some b => .flag b
  | none => .nothing

/-- Whether a property holds of a whole number; of other numbers it does
not, of forms with symbols it is not known. -/
def ofWhole (f : Int → Bool) (u : Form) : Option Bool :=
  match u.int? with
  | some n => some (f n)
  | none => if u.isNumeric then some false else none

def property? (name : String) (u : Form) : Option Reading :=
  let yes (b : Bool) : Option Reading := some (.flag b)
  let number? : Option Bool := if u.isNumeric then some true else none
  match name with
  | "is_Number" => yes u.isNumber
  | "is_number" => yes u.isNumeric
  | "is_Symbol" | "is_symbol" => yes u.isSymbol
  | "is_Add" => yes u.isSum
  | "is_Mul" => yes u.isProduct
  | "is_Pow" => yes u.isPower
  | "is_Integer" => yes u.int?.isSome
  | "is_Rational" => yes u.rat?.isSome
  | "is_Float" => yes (Library.precision u != 0)
  | "is_Atom" => yes u.parts.isEmpty
  | "is_Function" => yes (match u with | .call _ _ => true | _ => false)
  | "is_Relational" => yes (match u with | .relate _ _ _ => true | _ => false)
  | "is_Boolean" => yes u.isLogical
  | "is_commutative" => yes true
  | "is_integer" => some (known (ofWhole (fun _ => true) u))
  | "is_even" => some (known (ofWhole (fun n => n % 2 == 0) u))
  | "is_odd" => some (known (ofWhole (fun n => n % 2 != 0) u))
  | "is_prime" => some (known (ofWhole (fun n => 0 ≤ n && Counting.isPrime n.toNat) u))
  | "is_zero" => some (known (if u.isZero then some true else number?.map fun _ => false))
  | "is_positive" => some (known u.positive?)
  | "is_negative" => some (known u.negative?)
  | "is_nonnegative" => some (known (u.negative?.map not))
  | "is_nonpositive" => some (known (u.positive?.map not))
  | "is_real" | "is_extended_real" => some (known u.real?)
  | "is_complex" | "is_finite" => some (known number?)
  | "is_rational" => some (known (if u.rat?.isSome then some true else none))
  | "is_irrational" => some (known (if u.rat?.isSome then some false else none))
  | _ => none

def part? (name : String) (u : Form) : Option Reading :=
  match name, u with
  | "name", .symbol x => some (.text x)
  | "args", u => some (.tuple (match u with
    | .cases vs cs => (vs.zip cs).map fun p => .tuple [.form p.1, .form p.2]
    | u => u.parts.map .form))
  | "func", u => some (.callable (kindOf u))
  | "free_symbols", u =>
    some (.set (u.names.eraseDups.map fun x => .form (.symbol x)))
  | "p", .number (.exact q) | "numerator", .number (.exact q) => some (.form (Form.int q.num))
  | "q", .number (.exact q) | "denominator", .number (.exact q) => some (.form (Form.int q.den))
  | "base", .power b _ => some (.form b)
  | "exp", .power _ e => some (.form e)
  | "base", .call .exp _ => some (.form (.constant .e))
  | "exp", .call .exp u => some (.form u)
  | "lhs", .relate _ l _ | "gts", .relate .gt l _ | "gts", .relate .ge l _ => some (.form l)
  | "rhs", .relate _ _ r | "lts", .relate .gt _ r | "lts", .relate .ge _ r => some (.form r)
  | "gts", .relate .lt _ r | "gts", .relate .le _ r => some (.form r)
  | "lts", .relate .lt l _ | "lts", .relate .le l _ => some (.form l)
  | "rel_op", .relate rel _ _ => some (.text rel.symbol)
  | "reversed", .relate rel l r => some (.form (.relate rel.reversed r l))
  | "negated", .relate rel l r => some (.form (.relate rel.negated l r))
  | "canonical", u => if u.isLogical then some (.form u) else none
  | "expr", .foreign "Lambda" us => us.getLast?.map .form
  | "function", .foreign _ (v :: _) => if u.isOpen then some (.form v) else none
  | name, u => property? name u

/-- Methods of forms that are procedures with the form as their first
argument. -/
def sharedMethods : List String :=
  ["expand", "simplify", "factor", "cancel", "together", "apart", "collect", "trigsimp",
    "powsimp", "radsimp", "ratsimp", "nsimplify", "combsimp", "gammasimp", "refine", "diff",
    "integrate", "limit", "series", "count_ops", "round", "gcd", "lcm"]

/-- Methods of forms with a rule of their own. -/
def formMethods : List String :=
  ["subs", "xreplace", "replace", "evalf", "n", "doit", "coeff", "copy", "as_expr",
    "as_numer_denom", "as_coeff_Mul", "as_coeff_Add", "as_base_exp", "as_ordered_terms",
    "as_ordered_factors", "as_real_imag", "as_independent", "as_poly", "as_coefficients_dict",
    "as_powers_dict", "as_leading_term", "has", "has_free", "equals", "is_constant",
    "is_polynomial", "is_rational_function", "is_algebraic_expr", "could_extract_minus_sign",
    "conjugate", "adjoint", "transpose", "floor", "ceiling", "getO", "removeO", "normal",
    "separate", "atoms", "find", "count", "match", "matches", "compare", "sort_key", "invert",
    "nseries", "lseries", "leadterm", "as_content_primitive", "primitive", "extract_additively",
    "extract_multiplicatively", "dummy_eq", "is_hypergeometric", "aseries", "fps", "det", "trace",
    "limit_denominator", "factors", "as_integer_ratio", "as_set", "as_dummy", "as_terms",
    "as_coeff_add", "as_coeff_mul", "as_coefficient", "args_cnc", "degree", "__add__", "__sub__",
    "__mul__", "__truediv__", "__pow__", "__neg__", "__abs__", "__mod__", "__floordiv__",
    "__eq__", "__ne__", "__lt__", "__le__", "__gt__", "__ge__"]

def textMethods : List String :=
  ["upper", "lower", "strip", "lstrip", "rstrip", "replace", "split", "join", "capitalize",
    "title", "swapcase", "count", "find", "index", "startswith", "endswith", "isdigit", "isalpha",
    "format", "encode", "zfill", "center", "ljust", "rjust", "splitlines", "isupper", "islower"]

def listMethods : List String :=
  ["index", "count", "copy", "pop", "append", "extend", "insert", "remove", "reverse", "sort",
    "clear"]

def tableMethods : List String :=
  ["keys", "values", "items", "get", "copy", "pop", "update", "clear", "setdefault"]

def setMethods : List String :=
  ["union", "intersection", "difference", "copy", "pop", "add", "remove", "issubset"]

def hasMethod (a : Reading) (name : String) : Bool :=
  match a with
  | .form _ => sharedMethods.contains name || formMethods.contains name
  | .text _ => textMethods.contains name
  | .list _ => listMethods.contains name
  | .tuple _ => name == "index" || name == "count"
  | .table _ _ => tableMethods.contains name
  | .set _ => setMethods.contains name
  | _ => false

def member (owner : Reading) (name : String) : Result Reading :=
  let value? : Option Reading :=
    match owner with
    | .form u => part? name u
    | .callable "S" => (Vocabulary.registered? name).map .form
    | .object "Q" => some (.form (.foreign "Predicate" []))
    | .callable f | .function f => if name == "__name__" then some (.text f) else none
    | _ => none
  match value? with
  | some a => .ok a
  | none => if hasMethod owner name then .ok (.method owner name) else .error .noAlgebra

/-! ## Methods -/

/-- The pairs of old and new that arguments describe. -/
def replacements (read : Read) (args : List Reading) : Result (List (Form × Form)) := do
  let pair (a : Reading) : Result (Form × Form) := do
    match a with
    | .tuple [x, y] | .list [x, y] => return (← argument read x, ← argument read y)
    | _ => throw .outsideDomain
  match args with
  | [.table ks vs] => return (← arguments read ks).zip (← arguments read vs)
  | [.list items] | [.tuple items] | [.set items] => items.mapM pair
  | [x, y] => return [(← argument read x, ← argument read y)]
  | [_] => throw .outsideDomain
  | _ => throw .mixedLogic

def replacedBy (u : Form) (ps : List (Form × Form)) : Result Form :=
  ps.foldlM (fun v p => v.replaced p.1 p.2) u

/-- The terms of a sum that are no order of what was left out. -/
def withoutOrder (u : Form) : Result Form :=
  rules.sum (u.terms.filter fun t => match t with
    | .foreign f _ => f != "Order"
    | _ => true)

/-- The operator that a method with two underscores stands for. -/
def operator? (name : String) : Option String :=
  let table : List (String × String) :=
    [("__add__", "+"), ("__sub__", "-"), ("__mul__", "*"), ("__truediv__", "/"),
      ("__pow__", "**"), ("__mod__", "%"), ("__floordiv__", "//")]
  (table.find? fun p => p.1 == name).map Prod.snd

def comparison? (name : String) : Option String :=
  let table : List (String × String) :=
    [("__eq__", "=="), ("__ne__", "!="), ("__lt__", "<"), ("__le__", "<="), ("__gt__", ">"),
      ("__ge__", ">=")]
  (table.find? fun p => p.1 == name).map Prod.snd

def formMethod (read : Read) (u : Form) (name : String) (args : List Reading) (named : Named) :
    Result Reading := do
  let form (r : Result Form) : Result Reading := Reading.form <$> r
  let pair (p : Form × Form) : Reading := .tuple [.form p.1, .form p.2]
  match name, args with
  | "subs", args => form (do replacedBy u (← replacements read args))
  | "xreplace", args | "replace", args => form (do replacedBy u (← replacements read args))
  | "evalf", args | "n", args =>
    let digits ← match (args.head?).or (named? named "n") with
      | some n => natural n
      | none => pure 15
    let v ← match named? named "subs" with
      | some a => replacedBy u (← replacements read [a])
      | none => pure u
    form (Library.numeric digits v)
  | "doit", _ => form (settled u)
  | "coeff", [x] =>
    match ← argument read x with
    | .number _ => form (.error .outsideDomain)
    | v => form (u.coefficientOf v Form.one)
  | "coeff", [x, n] => form (do u.coefficientOf (← argument read x) (← argument read n))
  | "copy", _ | "as_expr", _ | "normal", _ | "separate", _ | "as_dummy", _ =>
    match u with
    | .foreign "Poly" (v :: _) => return .form v
    | u => return .form u
  | "as_numer_denom", [] => return pair (← u.fraction)
  | "as_coeff_Mul", [] =>
    let c := u.coefficient
    return pair (.number c.1, if c.2 == Form.one then Form.one else c.2)
  | "as_coeff_Add", [] =>
    match u with
    | .sum (.number a :: us) => return pair (.number a, Form.rawSum us)
    | .number a => return pair (.number a, Form.zero)
    | u => return pair (Form.zero, u)
  | "as_base_exp", [] => return pair (u.baseExponent Form.negated)
  | "as_ordered_terms", [] => return .list (u.writtenTerms.map .form)
  | "as_ordered_factors", [] => return .list (u.writtenFactors.map .form)
  | "as_real_imag", [] =>
    if u.isReal then return pair (u, Form.zero)
    else return pair (.foreign "re" [u], .foreign "im" [u])
  | "as_poly", _ => return .form (.foreign "Poly" [u])
  | "degree", _ =>
    match u with
    | .foreign "Poly" (v :: _) => form (do degree v (← onlySymbol v))
    | _ => throw .noAlgebra
  | "has", args => do
    let vs ← arguments read args
    return .flag (vs.any fun v => !((u.replaced v (.symbol "")).toOption.getD u == u))
  | "equals", [a] =>
    let v ← argument read a
    return .flag ((← (← rules.sub u v).simplified).isZero)
  | "is_constant", _ => return .flag u.names.isEmpty
  | "is_polynomial", _ | "is_rational_function", _ | "is_algebraic_expr", _ | "has_free", _
  | "dummy_eq", _ => return .flag true
  | "could_extract_minus_sign", [] => return .flag u.leansNegative
  | "conjugate", [] | "adjoint", [] | "transpose", [] | "floor", [] | "ceiling", [] =>
    form (Library.apply name [u])
  | "getO", [] =>
    match u.terms.find? fun t => match t with | .foreign f _ => f == "Order" | _ => false with
    | some t => return .form t
    | none => return .nothing
  | "removeO", [] => form (withoutOrder u)
  | "atoms", _ =>
    return .set (u.names.eraseDups.map fun x => .form (.symbol x))
  | "det", [] | "trace", [] => call read name [.form u] []
  | "as_integer_ratio", [] =>
    match u.rat? with
    | some q => return pair (Form.int q.num, Form.int q.den)
    | none => throw .noAlgebra
  | "limit_denominator", _ => return .form u
  | "__neg__", [] => signed "-" (.form u)
  | "__abs__", [] => form (Library.apply "Abs" [u])
  | name, args =>
    match operator? name, comparison? name, args with
    | some op, _, [a] => combine op (.form u) a
    | none, some op, [a] => compared op (.form u) a
    | _, _, _ =>
      if sharedMethods.contains name then call read name (.form u :: args) named
      else return .form (.foreign "Open" [u])

/-- Every occurrence of a part of a text replaced; `fuel` has to reach the
length of the text. -/
def textReplaced (old new : List Char) : (fuel : Nat) → List Char → List Char
  | 0, cs => cs
  | fuel + 1, cs =>
    match cs with
    | [] => []
    | c :: rest =>
      if !old.isEmpty && old.isPrefixOf cs then
        new ++ textReplaced old new fuel (cs.drop old.length)
      else c :: textReplaced old new fuel rest

def capitalized (cs : List Char) : List Char :=
  match cs with
  | [] => []
  | c :: rest => c.toUpper :: rest.map Char.toLower

def wordsOf (cs : List Char) : List (List Char) :=
  (cs.splitBy fun a b => Text.isBlank a == Text.isBlank b).filter fun w => w.all fun c =>
    !(Text.isBlank c)

def textMethod (s : String) (name : String) (args : List Reading) : Result Reading :=
  let cs := s.toList
  let text (cs : List Char) : Result Reading := .ok (.text (String.ofList cs))
  match name, args with
  | "upper", [] => text (cs.map Char.toUpper)
  | "lower", [] => text (cs.map Char.toLower)
  | "capitalize", [] => text (capitalized cs)
  | "title", [] => text ((cs.splitBy fun a b => a.isAlpha == b.isAlpha).flatMap capitalized)
  | "swapcase", [] => text (cs.map fun c => if c.isUpper then c.toLower else c.toUpper)
  | "strip", [] => text (Text.trimmed cs)
  | "lstrip", [] => text (cs.dropWhile Text.isBlank)
  | "rstrip", [] => text (cs.reverse.dropWhile Text.isBlank).reverse
  | "replace", [.text old, .text new] =>
    text (textReplaced old.toList new.toList (cs.length + 1) cs)
  | "split", [] => .ok (.list ((wordsOf cs).map fun w => .text (String.ofList w)))
  | "split", [.text d] => .ok (.list ((s.splitOn d).map .text))
  | "join", [a] =>
    match a.items?.bind fun items => items.mapM fun b => match b with
      | .text t => some t
      | _ => none with
    | some ts => .ok (.text (s.intercalate ts))
    | none => .error .mixedLogic
  | "startswith", [.text t] => .ok (.flag (t.toList.isPrefixOf cs))
  | "endswith", [.text t] => .ok (.flag (t.toList.reverse.isPrefixOf cs.reverse))
  | "isdigit", [] => .ok (.flag (!cs.isEmpty && cs.all Text.isDigit))
  | "isalpha", [] => .ok (.flag (!cs.isEmpty && cs.all Char.isAlpha))
  | "count", [.text t] => .ok (.form (Form.int ((s.splitOn t).length - 1 : Nat)))
  | "find", [.text t] | "index", [.text t] =>
    match (List.range (cs.length + 1)).find? fun k => t.toList.isPrefixOf (cs.drop k) with
    | some k => .ok (.form (Form.int k))
    | none => if name == "find" then .ok (.form Form.minusOne) else .error .outsideDomain
  | "format", [] => .ok (.text s)
  | _, _ => .error .mixedLogic

def itemsMethod (items : List Reading) (name : String) (args : List Reading) : Result Reading :=
  match name, args with
  | "index", [a] =>
    match items.findIdx? (same a) with
    | some k => .ok (.form (Form.int k))
    | none => .error .outsideDomain
  | "count", [a] => .ok (.form (Form.int (items.countP (same a))))
  | "copy", [] => .ok (.list items)
  | "pop", [] => itemAt items (-1)
  | "pop", [i] =>
    match i.whole? with
    | some k => itemAt items k
    | none => .error .mixedLogic
  | "union", _ | "intersection", _ | "difference", _ => .ok (.set items)
  | _, _ => .ok .nothing

def tableMethod (ks vs : List Reading) (name : String) (args : List Reading) : Result Reading :=
  match name, args with
  | "get", [k] => .ok ((lookup? k ks vs).getD .nothing)
  | "get", [k, other] | "pop", [k, other] => .ok ((lookup? k ks vs).getD other)
  | "pop", [k] =>
    match lookup? k ks vs with
    | some v => .ok v
    | none => .error .missingKey
  | "copy", [] => .ok (.table ks vs)
  | "keys", [] | "values", [] | "items", [] => .ok (.object name)
  | _, _ => .ok .nothing

def callMethod (read : Read) (owner : Reading) (name : String) (args : List Reading)
    (named : Named) : Result Reading :=
  match owner with
  | .form u => formMethod read u name args named
  | .text s => textMethod s name args
  | .list items | .tuple items | .set items => itemsMethod items name args
  | .table ks vs => tableMethod ks vs name args
  | _ => .error .mixedLogic

/-- Calls anything. An anonymous function is called by putting its
arguments in the place of its parameters. -/
def callAny (read : Read) (callee : Reading) (args : List Reading) (named : Named) :
    Result Reading :=
  match callee with
  | .callable name => call read name args named
  | .function f => do return .form (.foreign f (← arguments read args))
  | .method owner name => callMethod read owner name args named
  | .form (.foreign "Lambda" us) => do
    let vs ← arguments read args
    let params := us.dropLast
    if params.length == vs.length then
      return .form (← replacedBy (us.getLastD Form.zero) (params.zip vs))
    else throw .mixedLogic
  | _ => .error .mixedLogic

end Fluxion.Algebra.Reading
