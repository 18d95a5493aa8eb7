import FogDispatch.Number.Arith

/-!
# Binary floating point

Numbers of 64 bits as words.  The word is kept instead of the decoded value because the order of
clocks reads the bits: an undefined value with the sign bit set comes before all others, and one
without it after all others.  Arithmetic is the correctly rounded one.  Of undefined operands the
first is passed on, made quiet, and an operation that is undefined on defined operands gives the
quiet value whose sign bit is set.
-/

namespace FogDispatch

/-- A floating point number of 64 bits. -/
structure Binary64 where
  bits : UInt64
  deriving DecidableEq, Repr, Inhabited

namespace Binary64

def toFloat (a : Binary64) : Float := Float.ofBits a.bits

def isNegative (a : Binary64) : Bool := a.bits &&& 0x8000000000000000 != 0

def magnitude (a : Binary64) : UInt64 := a.bits &&& 0x7fffffffffffffff

def isUndefined (a : Binary64) : Bool := a.magnitude > 0x7ff0000000000000

def isInfinite (a : Binary64) : Bool := a.magnitude == 0x7ff0000000000000

def quieted (a : Binary64) : Binary64 := ⟨a.bits ||| 0x0008000000000000⟩

/-- The result of an operation that is undefined on its defined operands. -/
def indefinite : Binary64 := ⟨0xfff8000000000000⟩

def ofFloat (x : Float) : Binary64 :=
  if x.isNaN then indefinite else ⟨x.toBits⟩

/-- Lifts a rounded operation to words, passing undefined operands on. -/
def lift (f : Float → Float → Float) (a b : Binary64) : Binary64 :=
  if a.isUndefined then a.quieted
  else if b.isUndefined then b.quieted
  else ofFloat (f a.toFloat b.toFloat)

def negate (a : Binary64) : Binary64 := ⟨a.bits ^^^ 0x8000000000000000⟩

/-- The place of a word in the total order: negative words count downwards. -/
def rank (a : Binary64) : Int :=
  if a.isNegative then -(a.magnitude.toNat : Int) - 1 else a.magnitude.toNat

def infinity (negative : Bool) : Binary64 :=
  if negative then ⟨0xfff0000000000000⟩ else ⟨0x7ff0000000000000⟩

def signed (negative : Bool) (a : Binary64) : Binary64 :=
  if negative then a.negate else a

/-- The number of decimal digits of a natural number. -/
def decimalLength (n : Nat) : Nat := (Nat.toDigits 10 n).length

/-- The nearest number to `digits * 10 ^ exponent`, ties to the even neighbour.  Magnitudes beyond
the range are settled by the place of the leading digit before any power is computed. -/
def ofDecimal (digits : Nat) (exponent : Int) : Binary64 :=
  let lead := (decimalLength digits : Int) + exponent
  if digits = 0 ∨ lead < -330 then ⟨0⟩
  else if lead > 310 then infinity false
  else if exponent < 0 then ofFloat (Float.ofScientific digits true exponent.natAbs)
  else ofFloat (Float.ofScientific digits false exponent.natAbs)

def ofLiteral : Literal → Binary64
  | .finite negative digits exponent => signed negative (ofDecimal digits exponent)
  | .infinite negative => infinity negative
  | .undefined negative => signed negative ⟨0x7ff8000000000000⟩

instance : Arith Binary64 where
  add := lift (· + ·)
  sub := lift (· - ·)
  mul := lift (· * ·)
  div := lift (· / ·)
  neg := negate
  ofNat n := ofDecimal n 0
  less a b := decide (a.toFloat < b.toFloat)
  same a b := a.toFloat == b.toFloat
  order a b := compare a.rank b.rank
  ofLiteral := ofLiteral

/-- The sign, the integer `m` and the exponent `q` of the finite number `m * 2 ^ q`. -/
def decode (a : Binary64) : Bool × Nat × Int :=
  let field := (a.magnitude >>> 52).toNat
  let fraction := (a.magnitude &&& 0x000fffffffffffff).toNat
  if field = 0 then (a.isNegative, fraction, -1074)
  else (a.isNegative, fraction + Nat.pow 2 52, field - 1075)

end Binary64
end FogDispatch
