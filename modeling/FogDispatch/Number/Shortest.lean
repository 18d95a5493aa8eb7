import FogDispatch.Number.Binary64

/-!
# Decimals of binary numbers

The shortest decimal that reads back as a given binary number, and whole-number rounding for texts
with a fixed count of places.  All of it is exact whole-number arithmetic on the value `m * 2 ^ q`.
The decimals that read back form an interval around the value, whose ends belong to it when the
significand is even.  On the grids of one, two, up to seventeen digits the two neighbours of the
value are tried, and the first grid with a neighbour inside the interval wins.
-/

namespace FogDispatch

/-- What becomes of a value exactly between two candidates. -/
inductive Tie where
  | toEven
  | upward
  deriving DecidableEq, Repr

/-- A quotient of natural numbers, rounded to the nearest whole number. -/
def roundQuotient (tie : Tie) (num den : Nat) : Nat :=
  let below := num / den
  let twice := 2 * (num % den)
  if twice < den then below
  else if den < twice then below + 1
  else match tie with
    | .toEven => if below % 2 = 0 then below else below + 1
    | .upward => below + 1

/-- The positive decimal `digits * 10 ^ exponent`. -/
structure Decimal where
  digits : Nat
  exponent : Int
  deriving DecidableEq, Repr

namespace Decimal

/-- The decimal digits of a natural number, most significant first. -/
def digitChars (n : Nat) : List Char := Nat.toDigits 10 n

def lead (d : Decimal) : Int := ((digitChars d.digits).length : Int) - 1 + d.exponent

def significant (d : Decimal) : List Char :=
  ((digitChars d.digits).reverse.dropWhile (· == '0')).reverse

end Decimal

namespace Shortest

/-- The number `m * 2 ^ q`, counted in units of `10 ^ k`, as a quotient of natural numbers. -/
def onGrid (m : Nat) (q k : Int) : Nat × Nat :=
  (m * Nat.pow 2 q.toNat * Nat.pow 10 (-k).toNat, Nat.pow 2 (-q).toNat * Nat.pow 10 k.toNat)

/-- Whether the decimal `d * 10 ^ k` reads back as the number `m * 2 ^ q`.  Distances are counted in
quarters of the spacing, which is half as wide below a power of two. -/
def readsBack (m : Nat) (q : Int) (d : Nat) (k : Int) : Bool :=
  let point := 4 * d * Nat.pow 10 k.toNat * Nat.pow 2 (-q).toNat
  let quarter := Nat.pow 2 q.toNat * Nat.pow 10 (-k).toNat
  let low := (if m = Nat.pow 2 52 ∧ -1074 < q then 4 * m - 1 else 4 * m - 2) * quarter
  let high := (4 * m + 2) * quarter
  if m % 2 = 0 then low ≤ point && point ≤ high else low < point && point < high

/-- The power of ten of the leading digit of the positive number `m * 2 ^ q`. -/
def leadOf (m : Nat) (q : Int) : Int :=
  let (num, den) := onGrid m q 0
  let guess : Int := (Decimal.digitChars num).length - (Decimal.digitChars den).length
  let (num, den) := onGrid m q guess
  if den ≤ num then guess else guess - 1

/-- The neighbour of `m * 2 ^ q` in units of `10 ^ k` that reads back, the nearer one first. -/
def neighbour? (tie : Tie) (m : Nat) (q k : Int) : Option Decimal :=
  let (num, den) := onGrid m q k
  let below := num / den
  let nearer := roundQuotient tie num den
  let farther := if nearer = below then below + 1 else below
  if readsBack m q nearer k then some ⟨nearer, k⟩
  else if readsBack m q farther k then some ⟨farther, k⟩
  else none

end Shortest

/-- The shortest decimal that reads back as the positive number `m * 2 ^ q`. -/
def shortestDecimal (tie : Tie) (m : Nat) (q : Int) : Decimal :=
  let lead := Shortest.leadOf m q
  let hit := (List.range 17).findSome? fun (n : Nat) => Shortest.neighbour? tie m q (lead - n)
  hit.getD ⟨m * Nat.pow 2 q.toNat, 0⟩

end FogDispatch
