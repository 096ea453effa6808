import Fluxion.Algebra.Binary
import Fluxion.Algebra.Coefficient
import Fluxion.Algebra.Compiled
import Fluxion.Algebra.Complex
import Fluxion.Algebra.Complexity
import Fluxion.Algebra.Condition
import Fluxion.Algebra.Conversion
import Fluxion.Algebra.Counting
import Fluxion.Algebra.Differential
import Fluxion.Algebra.Equivalence
import Fluxion.Algebra.Expansion
import Fluxion.Algebra.Form
import Fluxion.Algebra.Identity
import Fluxion.Algebra.Integer
import Fluxion.Algebra.Library
import Fluxion.Algebra.Literal
import Fluxion.Algebra.Notation
import Fluxion.Algebra.Number
import Fluxion.Algebra.Order
import Fluxion.Algebra.Orthogonal
import Fluxion.Algebra.Phrase
import Fluxion.Algebra.Poly
import Fluxion.Algebra.Poly.Factor
import Fluxion.Algebra.Ratio
import Fluxion.Algebra.Reader
import Fluxion.Algebra.Reading
import Fluxion.Algebra.Reading.Call
import Fluxion.Algebra.Reading.Making
import Fluxion.Algebra.Reading.Member
import Fluxion.Algebra.Reading.Operation
import Fluxion.Algebra.Rules
import Fluxion.Algebra.Rules.Angle
import Fluxion.Algebra.Rules.Basic
import Fluxion.Algebra.Rules.Function
import Fluxion.Algebra.Rules.Power
import Fluxion.Algebra.Rules.Product
import Fluxion.Algebra.Rules.Sum
import Fluxion.Algebra.Simplest
import Fluxion.Algebra.Special
import Fluxion.Algebra.Token
import Fluxion.Algebra.Typeset
import Fluxion.Algebra.Value
import Fluxion.Algebra.Vocabulary
import Fluxion.Algebra.Written
import Fluxion.Binding
import Fluxion.Calculus
import Fluxion.Decimal.Layout
import Fluxion.Decimal.Reader
import Fluxion.Decimal.Shortest
import Fluxion.Definite
import Fluxion.Derivative
import Fluxion.Double
import Fluxion.Double.Arithmetic
import Fluxion.Evaluation
import Fluxion.Fault
import Fluxion.Grid
import Fluxion.Integral.Ledger
import Fluxion.Integral.Matching
import Fluxion.Integral.Pattern
import Fluxion.Integral.Pipeline
import Fluxion.Integral.Plan
import Fluxion.Integral.Session
import Fluxion.Integral.Strategy
import Fluxion.Journal
import Fluxion.Journal.Account
import Fluxion.Kernel
import Fluxion.Limit
import Fluxion.Numeric.Comparison
import Fluxion.Numeric.Difference
import Fluxion.Numeric.Quadrature
import Fluxion.Operand
import Fluxion.Operator
import Fluxion.Scalar
import Fluxion.Session
import Fluxion.Simplification
import Fluxion.Taylor
import Fluxion.Text.Blank
import Fluxion.Text.Digit
import Fluxion.Text.Quoted
import Fluxion.Text.Symbol
import Fluxion.Text.Word
import Fluxion.Tree
import Fluxion.Tree.Construction
import Fluxion.Tree.Equality
import Fluxion.Tree.Printer
import Fluxion.Tree.Product
import Fluxion.Tree.Substitution
import Fluxion.Tree.Traversal
import Fluxion.Proofs.Exact
import Fluxion.Proofs.Exact.Worth
import Fluxion.Proofs.Exact.Real
import Fluxion.Proofs.Exact.Closed
import Fluxion.Proofs.Exact.Spelling
import Fluxion.Proofs.Fault
import Fluxion.Proofs.Text.Lexeme
import Fluxion.Proofs.Tree.Over
import Fluxion.Proofs.Tree.Layout
import Fluxion.Proofs.Tree.Compact
import Fluxion.Proofs.Tree.Product
import Fluxion.Proofs.Simplification.Value
import Fluxion.Proofs.Derivative.Constant
import Fluxion.Proofs.Derivative.Real
import Fluxion.Proofs.Evaluation
import Fluxion.Proofs.Integral.Rules
import Fluxion.Proofs.Integral.Antiderivative
import Fluxion.Proofs.Integral.Matching
import Fluxion.Proofs.Integral.Over
import Fluxion.Proofs.Integral.Sound
import Fluxion.Proofs.Double
import Fluxion.Proofs.Integral.Fault
import Fluxion.Proofs.Integral.Overflow
import Fluxion.Proofs.Double.Flow
import Fluxion.Proofs.Integral.Ledger
import Fluxion.Proofs.Integral.Firm
import Fluxion.Proofs.Integral.Selection
import Fluxion.Proofs.Evaluation.Undefined
import Fluxion.Proofs.Evaluation.Point
import Fluxion.Proofs.Exact.Analytic
import Fluxion.Proofs.Derivative.Monotone
import Fluxion.Proofs.Definite
import Fluxion.Proofs.Integral.Question
import Fluxion.Proofs.Integral.Deepening
import Fluxion.Proofs.Tree.Residue
import Fluxion.Proofs.Integral.Termination
import Fluxion.Proofs.Evaluation.Column
import Fluxion.Proofs.Evaluation.Binding
import Fluxion.Proofs.Tree.Equality
import Fluxion.Proofs.Tree.Renaming
import Fluxion.Proofs.Integral.Recognition
import Fluxion.Proofs.Integral.Renaming
import Fluxion.Proofs.Double.Parts
import Fluxion.Proofs.Decimal.Interval
import Fluxion.Proofs.Decimal.Layout
import Fluxion.Proofs.Double.Spelling
import Fluxion.Proofs.Derivative.Mixed
import Fluxion.Proofs.Integral.Table
import Fluxion.Proofs.Integral.Combination
import Fluxion.Proofs.Double.Natural
import Fluxion.Proofs.Integral.ByParts
import Fluxion.Proofs.Double.Product
import Fluxion.Proofs.Simplification.Normal
import Fluxion.Proofs.Simplification.Idempotent
import Fluxion.Proofs.Exact.Order
import Fluxion.Proofs.Exact.Rational
import Fluxion.Proofs.Integral.Sampling
import Fluxion.Proofs.Tree.Polynomial
import Fluxion.Proofs.Taylor
import Fluxion.Proofs.Tree.Substitution
import Fluxion.Proofs.Evaluation.Substitution
import Fluxion.Proofs.Derivative.Polynomial
import Fluxion.Proofs.Double.Quotient
import Fluxion.Proofs.Taylor.Range
import Fluxion.Proofs.Derivative.Substitution
import Fluxion.Proofs.Evaluation.Variable
import Fluxion.Proofs.Integral.Redundancy
import Fluxion.Proofs.Integral.Refusal
import Fluxion.Proofs.Integral.Variable
import Fluxion.Proofs.Tree.Merged
import Fluxion.Proofs.Numeric.Difference
import Fluxion.Proofs.Algebra.Fuel
import Fluxion.Proofs.Algebra.Conversion
import Fluxion.Proofs.Journal
import Fluxion.Proofs.Tree.Position
import Fluxion.Proofs.Double.Reading
import Fluxion.Proofs.Derivative.Variable
import Fluxion.Proofs.Simplification.Bound
import Fluxion.Proofs.Simplification.Checked
import Fluxion.Proofs.Tree.Traversal
