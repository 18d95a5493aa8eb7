import FogDispatch.Number.Arith
import Mathlib.Algebra.Order.Field.Rat
import Mathlib.Data.Rat.Defs

/-!
# Exact arithmetic

The rationals as the carrier of a simulation.  No result is rounded and the order of clocks is the
order of values.  The named values of literals are no rationals and count as zero.
-/

namespace FogDispatch

/-- The value of a literal without rounding. -/
def Literal.exact : Literal → ℚ
  | .finite negative digits exponent => (if negative then -1 else 1) * digits * 10 ^ exponent
  | .infinite _ | .undefined _ => 0

instance : Arith ℚ where
  ofNat n := n
  less a b := decide (a < b)
  same a b := decide (a = b)
  order a b := compare a b
  ofLiteral := Literal.exact

end FogDispatch
