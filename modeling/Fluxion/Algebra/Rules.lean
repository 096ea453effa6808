/-
The rules of algebra, tied together. A rule at one level combines the
parts of its result by the rules one level below, so that every rule ends;
the number of levels in `rules` is far beyond the depth to which the parts
of a result are combined again.
-/
import Fluxion.Algebra.Rules.Function
import Fluxion.Algebra.Rules.Power
import Fluxion.Algebra.Rules.Product
import Fluxion.Algebra.Rules.Sum

namespace Fluxion.Algebra

/-- The rules with `n` levels. -/
def Rules.level : Nat → Rules
  | 0 => inert
  | n + 1 =>
    { sum := Sum.rule (level n)
      product := Product.rule (level n)
      power := Power.rule (level n)
      call := Function.rule (level n) }

def rules : Rules := Rules.level 100

end Fluxion.Algebra
