import FogDispatch.Number.Shortest

/-!
# Texts of binary numbers

One record per way of writing a number, and one printer for all of them.  Plain texts never use an
exponent, listings and rows use one outside a range of magnitudes, and clock texts have a fixed
count of places.
-/

namespace FogDispatch

/-- How a number is written with its shortest digits. -/
structure RealStyle where
  /-- The powers of ten of the leading digit that are written without an exponent, all if absent. -/
  positional : Option (Int × Int)
  /-- Whether a whole number ends in a point and a zero. -/
  pointed : Bool
  /-- Whether a positive exponent has a sign. -/
  plus : Bool
  tie : Tie
  undefined : String
  positiveInfinity : String
  negativeInfinity : String

namespace RealStyle

/-- A setting read as text: all digits written out, whole numbers without a point. -/
def plain : RealStyle :=
  { positional := none, pointed := false, plus := false, tie := .upward,
    undefined := "NaN", positiveInfinity := "inf", negativeInfinity := "-inf" }

def listing : RealStyle :=
  { positional := some (-4, 15), pointed := true, plus := false, tie := .upward,
    undefined := "NaN", positiveInfinity := "inf", negativeInfinity := "-inf" }

/-- A number in a request line, where what is not finite has no text of its own. -/
def wire : RealStyle :=
  { positional := some (-5, 15), pointed := true, plus := true, tie := .toEven,
    undefined := "null", positiveInfinity := "null", negativeInfinity := "null" }

def row : RealStyle :=
  { positional := some (-5, 15), pointed := true, plus := false, tie := .toEven,
    undefined := "NaN", positiveInfinity := "inf", negativeInfinity := "-inf" }

/-- Digits whose first one has the power of ten `lead`, with the point put in place. -/
def writePositional (pointed : Bool) (digits : List Char) (lead : Int) : List Char :=
  if lead < 0 then
    '0' :: '.' :: (List.replicate ((-lead).toNat - 1) '0' ++ digits)
  else
    let whole := lead.toNat + 1
    if digits.length ≤ whole then
      digits ++ List.replicate (whole - digits.length) '0' ++ (if pointed then ['.', '0'] else [])
    else digits.take whole ++ '.' :: digits.drop whole

/-- Digits with one of them before the point, and the exponent `lead`. -/
def writeScientific (plus : Bool) (digits : List Char) (lead : Int) : List Char :=
  let fraction := digits.drop 1
  digits.take 1 ++ (if fraction.isEmpty then [] else '.' :: fraction) ++ 'e' ::
    ((if lead < 0 then ['-'] else if plus then ['+'] else []) ++
      Decimal.digitChars lead.natAbs)

/-- The text of a finite magnitude `m * 2 ^ q`. -/
def writeMagnitude (style : RealStyle) (m : Nat) (q : Int) : List Char :=
  if m = 0 then (if style.pointed then ['0', '.', '0'] else ['0'])
  else
    let decimal := shortestDecimal style.tie m q
    let digits := decimal.significant
    let lead := decimal.lead
    match style.positional with
    | none => writePositional style.pointed digits lead
    | some (lowest, highest) =>
      if lowest ≤ lead ∧ lead ≤ highest then writePositional style.pointed digits lead
      else writeScientific style.plus digits lead

def write (style : RealStyle) (a : Binary64) : String :=
  if a.isUndefined then style.undefined
  else if a.isInfinite then
    (if a.isNegative then style.negativeInfinity else style.positiveInfinity)
  else
    let (negative, m, q) := a.decode
    String.ofList ((if negative then ['-'] else []) ++ style.writeMagnitude m q)

end RealStyle

namespace Binary64

/-- The text with a fixed count of places: the exact value rounded to them, a half to the even
neighbour, without an exponent.  A number that rounds to zero keeps its sign. -/
def fixed (places : Nat) (a : Binary64) : String :=
  if a.isUndefined then "NaN"
  else if a.isInfinite then (if a.isNegative then "-inf" else "inf")
  else
    let (negative, m, q) := a.decode
    let units := roundQuotient .toEven (m * Nat.pow 2 q.toNat * Nat.pow 10 places)
      (Nat.pow 2 (-q).toNat)
    let digits := Decimal.digitChars units
    let padded := List.replicate (places + 1 - digits.length) '0' ++ digits
    let whole := padded.length - places
    let sign := if negative then ['-'] else []
    String.ofList (sign ++ padded.take whole ++ '.' :: padded.drop whole)

end Binary64
end FogDispatch
