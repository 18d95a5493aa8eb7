import FogDispatch.Number.Literal

/-!
# The numbers of a simulation

Every rule of the simulator is written once over this class.  Runs use binary floating point, and
statements that read the arithmetic as exact use the same rules over the rationals.  Two
comparisons are kept apart: `less` and `same` compare values and hold of no undefined operand, while
`order` is the total order in which clocks are compared.
-/

namespace FogDispatch

/-- Arithmetic with a numeric comparison and a total order of clocks. -/
class Arith (α : Type) extends Add α, Sub α, Mul α, Div α, Neg α where
  ofNat : Nat → α
  less : α → α → Bool
  same : α → α → Bool
  order : α → α → Ordering
  ofLiteral : Literal → α

namespace Arith

variable {α : Type} [Arith α]

def zero : α := ofNat 0

def one : α := ofNat 1

/-- The larger operand; an undefined operand gives way to the other one. -/
def larger (a b : α) : α :=
  if same a a then (if less a b then b else a) else b

/-- The smaller operand; an undefined operand gives way to the other one. -/
def smaller (a b : α) : α :=
  if same a a then (if less b a then b else a) else b

/-- A quotient that is zero when there is nothing to divide by. -/
def ratioOrZero (a b : α) : α :=
  if same b zero then zero else a / b

/-- The running sum of a list that starts at `start`. -/
def sumFrom (start : α) (values : List α) : α :=
  values.foldl (· + ·) start

/-- The sum of a list.  The empty sum is negative zero, the neutral element of rounded addition. -/
def sum (values : List α) : α := sumFrom (-zero) values

/-- The mean of a list, zero when it is empty. -/
def mean (values : List α) : α :=
  ratioOrZero (sumFrom zero values) (ofNat values.length)

end Arith
end FogDispatch
