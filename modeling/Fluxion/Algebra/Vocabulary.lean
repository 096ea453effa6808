/-
The names that have a meaning of their own in a formula. A constant stands
for a form. The name of a kind makes forms when it is called, and is a
mathematical object by itself; the name of a procedure has to be called,
and is no mathematical object. All other names are symbols.
-/
import Fluxion.Algebra.Form
import Fluxion.Tree

namespace Fluxion.Algebra.Vocabulary

/-! ## Constants -/

def constants : List (String × Form) :=
  [("pi", Form.pi), ("E", .constant .e), ("I", .imaginary), ("oo", .number (.infinite false)),
    ("nan", Form.undefined), ("zoo", .unsigned), ("GoldenRatio", .constant .goldenRatio),
    ("EulerGamma", .constant .eulerGamma), ("Catalan", .constant .catalan),
    ("TribonacciConstant", .constant .tribonacci), ("true", .truth true), ("false", .truth false)]

/-- Sets and sequences with a name. -/
def collections : List String :=
  ["Reals", "Integers", "Naturals", "Naturals0", "Rationals", "Complexes", "EmptySet",
    "UniversalSet", "EmptySequence", "ord0"]

def constant? (x : String) : Option Form :=
  match constants.find? fun p => p.1 == x with
  | some p => some p.2
  | none => if collections.contains x then some (.foreign x []) else none

/-- Constants in the registry of forms that exist only once. -/
def registered : List (String × Form) :=
  [("Zero", Form.zero), ("One", Form.one), ("NegativeOne", Form.minusOne), ("Half", Form.half),
    ("Pi", Form.pi), ("Exp1", .constant .e), ("ImaginaryUnit", .imaginary),
    ("Infinity", .number (.infinite false)), ("NegativeInfinity", .number (.infinite true)),
    ("ComplexInfinity", .unsigned), ("NaN", Form.undefined),
    ("GoldenRatio", .constant .goldenRatio), ("EulerGamma", .constant .eulerGamma),
    ("Catalan", .constant .catalan), ("TribonacciConstant", .constant .tribonacci),
    ("true", .truth true), ("false", .truth false)]

def registered? (x : String) : Option Form :=
  match registered.find? fun p => p.1 == x with
  | some p => some p.2
  | none =>
    if collections.contains x || x == "IdentityFunction" then some (.foreign x []) else none

/-! ## Functions and comparisons -/

def functions : List (String × UnaryOp) :=
  [("sin", .sin), ("cos", .cos), ("tan", .tan), ("sec", .sec), ("csc", .csc), ("cot", .cot),
    ("exp", .exp), ("asin", .asin), ("acos", .acos), ("atan", .atan)]

def function? (x : String) : Option UnaryOp := (functions.find? fun p => p.1 == x).map Prod.snd

def relations : List (String × Relation) :=
  [("Eq", .eq), ("Equality", .eq), ("Ne", .ne), ("Unequality", .ne), ("Lt", .lt),
    ("StrictLessThan", .lt), ("Le", .le), ("LessThan", .le), ("Gt", .gt),
    ("StrictGreaterThan", .gt), ("Ge", .ge), ("GreaterThan", .ge)]

def relation? (x : String) : Option Relation := (relations.find? fun p => p.1 == x).map Prod.snd

/-- Names that mean the same as another. -/
def synonyms : List (String × String) :=
  [("ln", "log"), ("abs", "Abs"), ("max", "Max"), ("min", "Min"), ("rf", "RisingFactorial"),
    ("ff", "FallingFactorial"), ("O", "Order"), ("Eijk", "LeviCivita"),
    ("RealNumber", "Float"), ("gcd_list", "gcd"), ("lcm_list", "lcm"), ("sympify", "S"),
    ("MutableDenseMatrix", "Matrix"), ("MutableMatrix", "Matrix"),
    ("ImmutableMatrix", "Matrix"), ("ImmutableDenseMatrix", "Matrix")]

def standardName (x : String) : String :=
  match synonyms.find? fun p => p.1 == x with
  | some p => p.2
  | none => x

/-! ## Kinds -/

/-- Functions of numbers that expression trees do not have, with the
numbers of arguments they take. -/
def numberFunctions : List (String × List Nat) :=
  [("Abs", [1]), ("sign", [1]), ("floor", [1]), ("ceiling", [1]), ("frac", [1]), ("Mod", [2]),
    ("re", [1]), ("im", [1]), ("arg", [1]), ("conjugate", [1]), ("factorial", [1]),
    ("factorial2", [1]), ("subfactorial", [1]), ("binomial", [2]), ("RisingFactorial", [2]),
    ("FallingFactorial", [2]), ("gamma", [1]), ("loggamma", [1]), ("digamma", [1]),
    ("trigamma", [1]), ("polygamma", [2]), ("multigamma", [2]), ("lowergamma", [2]),
    ("uppergamma", [2]), ("beta", [1, 2]), ("betainc", [4]), ("betainc_regularized", [4]),
    ("zeta", [1, 2]), ("dirichlet_eta", [1, 2]), ("lerchphi", [3]), ("polylog", [2]),
    ("stieltjes", [1, 2]), ("riemann_xi", [1]), ("erf", [1]), ("erfc", [1]), ("erfi", [1]),
    ("erf2", [2]), ("erfinv", [1]), ("erfcinv", [1]), ("erf2inv", [2]), ("Ei", [1]), ("Si", [1]),
    ("Ci", [1]), ("Shi", [1]), ("Chi", [1]), ("li", [1]), ("Li", [1]), ("expint", [2]),
    ("fresnels", [1]), ("fresnelc", [1]), ("sinh", [1]), ("cosh", [1]), ("tanh", [1]),
    ("coth", [1]), ("sech", [1]), ("csch", [1]), ("asinh", [1]), ("acosh", [1]), ("atanh", [1]),
    ("acoth", [1]), ("asech", [1]), ("acsch", [1]), ("asec", [1]), ("acsc", [1]), ("acot", [1]),
    ("atan2", [2]), ("sinc", [1]), ("LambertW", [1, 2]), ("Heaviside", [1, 2]),
    ("DiracDelta", [1, 2]), ("KroneckerDelta", [2, 3]), ("SingularityFunction", [3]),
    ("besselj", [2]), ("bessely", [2]), ("besseli", [2]), ("besselk", [2]), ("hankel1", [2]),
    ("hankel2", [2]), ("jn", [2]), ("yn", [2]), ("hn1", [2]), ("hn2", [2]), ("airyai", [1]),
    ("airybi", [1]), ("airyaiprime", [1]), ("airybiprime", [1]), ("marcumq", [3]),
    ("appellf1", [6]), ("legendre", [2]), ("assoc_legendre", [3]), ("hermite", [2]),
    ("hermite_prob", [2]), ("chebyshevt", [2]), ("chebyshevu", [2]), ("chebyshevt_root", [2]),
    ("chebyshevu_root", [2]), ("laguerre", [2]), ("assoc_laguerre", [3]), ("gegenbauer", [3]),
    ("jacobi", [4]), ("Ynm", [4]), ("Znm", [4]), ("elliptic_k", [1]), ("elliptic_f", [2]),
    ("elliptic_e", [1, 2]), ("elliptic_pi", [2, 3]), ("mathieus", [3]), ("mathieuc", [3]),
    ("mathieusprime", [3]), ("mathieucprime", [3]), ("fibonacci", [1, 2]), ("lucas", [1]),
    ("tribonacci", [1, 2]), ("harmonic", [1, 2]), ("bernoulli", [1, 2]), ("euler", [1, 2]),
    ("catalan", [1]), ("bell", [1, 2, 3]), ("genocchi", [1, 2]), ("andre", [1]),
    ("partition", [1]), ("motzkin", [1]), ("totient", [1]), ("reduced_totient", [1]),
    ("mobius", [1]), ("divisor_sigma", [1, 2]), ("legendre_symbol", [2]),
    ("jacobi_symbol", [2]), ("kronecker_symbol", [2]), ("primenu", [1]), ("primeomega", [1]),
    ("primepi", [1]), ("polar_lift", [1]), ("periodic_argument", [2]), ("principal_branch", [2]),
    ("exp_polar", [1]), ("transpose", [1]), ("adjoint", [1]), ("Rem", [2])]

/-- Kinds of forms that are functions with any number of arguments, or
that are read by rules of their own. -/
def otherKinds : List String :=
  ["log", "ln", "rf", "ff", "Max", "Min", "max", "min", "Add", "Mul", "Pow", "Rational", "Integer",
    "Float", "RealNumber", "Number", "NumberSymbol", "Symbol", "Dummy", "Wild", "Function",
    "WildFunction", "Piecewise", "And", "Or", "Not", "Xor", "Nand", "Nor", "Implies", "Equivalent",
    "ITE", "Derivative", "Integral", "Sum", "Product", "Limit", "Order", "O", "Lambda", "Subs",
    "Tuple", "Dict", "Basic", "Atom", "Expr", "AtomicExpr", "UnevaluatedExpr", "AlgebraicNumber",
    "Rel", "Poly", "PurePoly", "GroebnerBasis", "CRootOf", "ComplexRootOf", "RootSum", "SeqPer",
    "SeqFormula", "SeqAdd", "SeqMul", "carmichael", "LeviCivita", "Eijk", "hyper", "meijerg",
    "Set", "Interval", "Union", "FiniteSet", "ProductSet", "Intersection", "DisjointUnion",
    "Complement", "SymmetricDifference", "ImageSet", "Range", "ComplexRegion", "Contains",
    "ConditionSet", "Ordinal", "OmegaPower", "PowerSet", "Matrix", "ImmutableMatrix",
    "ImmutableDenseMatrix", "ImmutableSparseMatrix", "BlockDiagMatrix", "BlockMatrix",
    "FunctionMatrix", "Identity", "Inverse", "MatAdd", "MatMul", "MatPow", "MatrixExpr",
    "MatrixSlice", "MatrixSymbol", "Trace", "Transpose", "ZeroMatrix", "OneMatrix", "Adjoint",
    "HadamardProduct", "HadamardPower", "Determinant", "DiagMatrix", "DiagonalMatrix",
    "DiagonalOf", "DotProduct", "KroneckerProduct", "PermutationMatrix", "MatrixPermute",
    "Permanent", "Point", "Point2D", "Point3D", "Line", "Ray", "Segment", "Line2D", "Segment2D",
    "Ray2D", "Line3D", "Segment3D", "Ray3D", "Plane", "Ellipse", "Circle", "Polygon",
    "RegularPolygon", "Triangle", "Curve", "Parabola", "MellinTransform", "InverseMellinTransform",
    "LaplaceTransform", "InverseLaplaceTransform", "FourierTransform", "InverseFourierTransform",
    "SineTransform", "InverseSineTransform", "CosineTransform", "InverseCosineTransform",
    "HankelTransform", "InverseHankelTransform", "IndexedBase", "Idx", "Indexed",
    "ImmutableDenseNDimArray", "ImmutableSparseNDimArray", "Array", "AccumBounds", "Quaternion",
    "AppliedPredicate", "Predicate", "Id", "Str"]

def isFunction (x : String) : Bool :=
  (function? x).isSome || numberFunctions.any (fun p => p.1 == standardName x) ||
    ["log", "Max", "Min"].contains (standardName x)

def isKind (x : String) : Bool :=
  functions.any (fun p => p.1 == x) || relations.any (fun p => p.1 == x) ||
    numberFunctions.any (fun p => p.1 == x) || otherKinds.contains x

def numberKinds : List String :=
  ["Number", "Integer", "Rational", "Float", "RealNumber", "NumberSymbol"]

/-- Kinds of objects that take no part in arithmetic. -/
def unarithmetic : List String :=
  collections ++
    ["And", "Or", "Not", "Xor", "Nand", "Nor", "Implies", "Equivalent", "ITE", "Tuple", "Dict",
      "Set", "Interval", "Union", "FiniteSet", "ProductSet", "Intersection", "DisjointUnion",
      "Complement", "SymmetricDifference", "ImageSet", "Range", "ComplexRegion", "Contains",
      "ConditionSet", "PowerSet", "Line", "Ray", "Segment", "Plane", "Ellipse", "Circle",
      "Polygon", "RegularPolygon", "Triangle", "Curve", "Parabola", "IndexedBase"]

/-! ## Procedures -/

def procedures : List String :=
  ["sqrt", "cbrt", "root", "real_root", "abs", "pow", "round", "sum", "S", "N", "sympify",
    "simplify", "expand", "factor", "cancel", "apart", "together", "collect", "rcollect", "diff",
    "integrate", "limit", "gruntz", "series", "solve", "solveset", "nsolve", "dsolve", "linsolve",
    "nonlinsolve", "rsolve", "trigsimp", "logcombine", "powsimp", "powdenest", "radsimp",
    "ratsimp", "nsimplify", "signsimp", "sqrtdenest", "combsimp", "gammasimp", "exptrigsimp",
    "besselsimp", "kroneckersimp", "hyperexpand", "separatevars", "posify", "cse", "refine",
    "symbols", "var", "gcd", "lcm", "igcd", "ilcm", "gcd_list", "lcm_list", "gcd_terms",
    "factor_terms", "factor_nc", "isprime", "prime", "nextprime", "prevprime", "randprime",
    "primerange", "primorial", "composite", "compositepi", "factorint", "factorrat",
    "primefactors", "divisors", "proper_divisors", "divisor_count", "proper_divisor_count",
    "multiplicity", "perfect_power", "pollard_pm1", "pollard_rho", "antidivisors",
    "antidivisor_count", "abundance", "npartitions", "is_primitive_root", "is_quad_residue",
    "n_order", "sqrt_mod", "sqrt_mod_iter", "quadratic_residues", "primitive_root", "nthroot_mod",
    "is_nthpow_residue", "discrete_log", "quadratic_congruence", "polynomial_congruence",
    "binomial_coefficients", "binomial_coefficients_list", "multinomial_coefficients",
    "continued_fraction_periodic", "continued_fraction_iterator", "continued_fraction_reduce",
    "continued_fraction_convergents", "continued_fraction", "egyptian_fraction", "mod_inverse",
    "integer_nthroot", "integer_log", "trailing", "prod", "num_digits", "comp", "seterr", "degree",
    "degree_list", "total_degree", "LC", "LM", "LT", "pdiv", "prem", "pquo", "pexquo", "div",
    "rem", "quo", "exquo", "half_gcdex", "gcdex", "invert", "subresultants", "resultant",
    "discriminant", "cofactors", "terms_gcd", "trunc", "monic", "content", "primitive", "compose",
    "decompose", "sturm", "gff_list", "gff", "sqf_norm", "sqf_part", "sqf_list", "sqf",
    "factor_list", "intervals", "refine_root", "count_roots", "all_roots", "real_roots", "nroots",
    "ground_roots", "nth_power_roots_poly", "reduced", "groebner", "is_zero_dimensional", "poly",
    "symmetrize", "horner", "interpolate", "rational_interpolate", "viete", "poly_from_expr",
    "parallel_poly_from_expr", "minpoly", "minimal_polynomial", "primitive_element",
    "field_isomorphism", "to_number_field", "isolate", "round_two", "prime_decomp",
    "prime_valuation", "galois_group", "itermonomials", "rootof", "RootOf", "roots",
    "construct_domain", "swinnerton_dyer_poly", "cyclotomic_poly", "symmetric_poly", "random_poly",
    "interpolating_poly", "jacobi_poly", "chebyshevt_poly", "chebyshevu_poly", "hermite_poly",
    "hermite_prob_poly", "legendre_poly", "laguerre_poly", "apart_list", "assemble_partfrac_list",
    "ring", "xring", "vring", "sring", "field", "xfield", "vfield", "sfield", "lex", "grlex",
    "grevlex", "ilex", "igrlex", "igrevlex", "approximants", "residue", "sequence",
    "fourier_series", "fps", "difference_delta", "limit_seq", "unbranched_argument", "polarify",
    "unpolarify", "piecewise_fold", "piecewise_exclusive", "E1", "bspline_basis",
    "bspline_basis_set", "interpolating_spline", "jn_zeros", "jacobi_normalized", "Ynm_c",
    "cycle_length", "product", "summation", "fft", "ifft", "ntt", "intt", "fwht", "ifwht",
    "mobius_transform", "inverse_mobius_transform", "convolution", "covering_product",
    "intersecting_product", "hypersimp", "hypersimilar", "fu", "epath", "collect_const",
    "fraction", "numer", "denom", "ratsimpmodprime", "imageset", "solve_linear_system",
    "solve_linear_system_LU", "solve_undetermined_coeffs", "solve_linear", "checksol", "det_quick",
    "inv_quick", "check_assumptions", "failing_assumptions", "diophantine", "rsolve_poly",
    "rsolve_ratio", "rsolve_hyper", "checkodesol", "classify_ode", "homogeneous_order",
    "solve_poly_system", "solve_triangulated", "pde_separate", "pde_separate_add",
    "pde_separate_mul", "pdsolve", "classify_pde", "checkpdesol", "ode_order",
    "reduce_inequalities", "reduce_abs_inequality", "reduce_abs_inequalities",
    "solve_poly_inequality", "solve_rational_inequalities", "solve_univariate_inequality",
    "decompogen", "linear_eq_to_matrix", "substitution", "GramSchmidt", "casoratian", "diag",
    "eye", "hessian", "jordan_cell", "matrix_multiply_elementwise", "ones", "randMatrix",
    "rot_axis1", "rot_axis2", "rot_axis3", "rot_ccw_axis1", "rot_ccw_axis2", "rot_ccw_axis3",
    "rot_givens", "symarray", "wronskian", "zeros", "banded", "blockcut", "block_collapse",
    "matrix_symbols", "hadamard_product", "det", "diagonalize_vector", "trace",
    "kronecker_product", "per", "rad", "deg", "are_similar", "centroid", "convex_hull", "idiff",
    "intersection", "closest_points", "farthest_points", "flatten", "group", "take", "subsets",
    "variations", "numbered_symbols", "cartes", "capture", "dict_merge", "prefixes", "postfixes",
    "sift", "topological_sort", "unflatten", "has_dups", "has_variety", "reshape", "rotations",
    "filldedent", "threaded", "xthreaded", "public", "memoize_property", "timed", "line_integrate",
    "mellin_transform", "inverse_mellin_transform", "laplace_transform", "laplace_correspondence",
    "laplace_initial_conds", "inverse_laplace_transform", "fourier_transform",
    "inverse_fourier_transform", "sine_transform", "inverse_sine_transform", "cosine_transform",
    "inverse_cosine_transform", "hankel_transform", "inverse_hankel_transform",
    "singularityintegrate", "get_contraction_structure", "get_indices", "shape", "tensorproduct",
    "tensorcontraction", "tensordiagonal", "derive_by_array", "permutedims", "parse_expr",
    "euler_equations", "singularities", "is_increasing", "is_strictly_increasing", "is_decreasing",
    "is_strictly_decreasing", "is_monotonic", "finite_diff_weights", "apply_finite_diff",
    "differentiate_finite", "periodicity", "not_empty_in", "is_convex", "stationary_points",
    "minimum", "maximum", "pager_print", "pretty", "pretty_print", "pprint", "pprint_use_unicode",
    "pprint_try_use_unicode", "latex", "print_latex", "multiline_latex", "mathml", "print_mathml",
    "ccode", "print_ccode", "smtlib_code", "glsl_code", "print_glsl", "cxxcode", "fcode",
    "print_fcode", "rcode", "print_rcode", "jscode", "print_jscode", "julia_code",
    "mathematica_code", "octave_code", "rust_code", "print_gtk", "preview", "srepr", "print_tree",
    "sstr", "sstrrepr", "dotprint", "maple_code", "print_maple_code", "plot", "textplot",
    "plot_implicit", "plot_parametric", "init_session", "init_printing", "interactive_traversal",
    "test", "doctest", "cacheit", "preorder_traversal", "postorder_traversal", "default_sort_key",
    "ordered", "bottom_up", "use", "vectorize", "count_ops", "expand_mul", "expand_log",
    "expand_func", "expand_trig", "expand_complex", "expand_multinomial", "nfloat",
    "expand_power_base", "expand_power_exp", "arity", "evaluate", "to_cnf", "to_dnf", "to_nnf",
    "POSform", "SOPform", "simplify_logic", "bool_map", "satisfiable", "assuming", "ask",
    "register_handler", "remove_handler", "all", "any", "ascii", "bin", "breakpoint", "callable",
    "chr", "compile", "delattr", "dir", "divmod", "eval", "exec", "format", "getattr", "globals",
    "hasattr", "hash", "hex", "id", "input", "isinstance", "issubclass", "iter", "len", "locals",
    "next", "oct", "open", "ord", "print", "repr", "setattr", "sorted", "vars", "aiter", "anext",
    "__build_class__", "__import__"]

/-- Classes of objects that are not mathematical, and fields of numbers. -/
def classes : List String :=
  ["FunctionClass", "PoleError", "PrecisionExhausted", "AssumptionsContext", "BasePolynomialError",
    "ExactQuotientFailed", "PolynomialDivisionFailed", "OperationNotSupported",
    "HeuristicGCDFailed", "HomomorphismFailed", "IsomorphismFailed", "ExtraneousFactors",
    "EvaluationFailed", "RefinementFailed", "CoercionFailed", "NotInvertible", "NotReversible",
    "NotAlgebraic", "DomainError", "PolynomialError", "UnificationFailed", "GeneratorsError",
    "GeneratorsNeeded", "ComputationFailed", "UnivariatePolynomialError",
    "MultivariatePolynomialError", "PolificationFailed", "OptionError", "FlagError", "Monomial",
    "Options", "Domain", "FiniteField", "IntegerRing", "RationalField", "RealField",
    "ComplexField", "AlgebraicField", "PolynomialRing", "FractionField", "ExpressionDomain", "GF",
    "FF", "ZZ", "QQ", "ZZ_I", "QQ_I", "RR", "CC", "EX", "EXRAW", "Sieve", "EPath", "ShapeError",
    "NonSquareMatrixError", "MutableDenseMatrix", "DeferredVector", "MatrixBase", "MutableMatrix",
    "MutableSparseMatrix", "SparseMatrix", "GeometryError", "MutableDenseNDimArray",
    "MutableSparseNDimArray", "NDimArray", "DenseNDimArray", "SparseNDimArray", "StrPrinter",
    "TableForm"]

def isProcedure (x : String) : Bool := procedures.contains x || classes.contains x

/-- Whether a name in front of parentheses is called, rather than
multiplied. -/
def isCallable (x : String) : Bool := isKind x || isProcedure x

def isKnown (x : String) : Bool := isCallable x || (constant? x).isSome || x == "Q"

end Fluxion.Algebra.Vocabulary
