/-!
# Number literals

The texts that stand for numbers in datasets, decision answers and settings.  A whole number is an
optional sign and ASCII digits; a real number is a sign with a named value, or digits with an
optional point and an optional exponent.  Reading a literal keeps its exact decimal value; rounding
is left to the carrier that receives it.  A text that is no literal is refused with the cause of the
refusal, and of several causes the one that stands leftmost wins.
-/

namespace FogDispatch

/-- Why a text is not a number of the wanted kind. -/
inductive NumberFault where
  | emptyWhole
  | strayCharacter
  | tooLarge
  | tooSmall
  | emptyReal
  | malformedReal
  deriving DecidableEq, Repr, Inhabited

namespace NumberFault

def message : NumberFault → String
  | emptyWhole => "cannot parse integer from empty string"
  | strayCharacter => "invalid digit found in string"
  | tooLarge => "number too large to fit in target type"
  | tooSmall => "number too small to fit in target type"
  | emptyReal => "cannot parse float from empty string"
  | malformedReal => "invalid float literal"

end NumberFault

def digitValue? (c : Char) : Option Nat :=
  if '0' ≤ c ∧ c ≤ '9' then some (c.toNat - '0'.toNat) else none

def isDigit (c : Char) : Bool := (digitValue? c).isSome

/-- The number that a run of digits spells; other characters count as zero. -/
def digitsValue (cs : List Char) : Nat :=
  cs.foldl (fun n c => 10 * n + (digitValue? c).getD 0) 0

namespace Whole

/-- Extends `value` by the digits of a text as long as it stays at most `limit`. -/
def readDigits (limit : Nat) (beyond : NumberFault) (value : Nat) :
    List Char → Except NumberFault Nat
  | [] => .ok value
  | c :: rest =>
    match digitValue? c with
    | none => .error .strayCharacter
    | some d =>
      if 10 * value + d ≤ limit then readDigits limit beyond (10 * value + d) rest
      else .error beyond

/-- A whole number from zero to `limit`, with an optional plus sign. -/
def readNat (limit : Nat) : List Char → Except NumberFault Nat
  | [] => .error .emptyWhole
  | ['+'] => .error .strayCharacter
  | '+' :: digits => readDigits limit .tooLarge 0 digits
  | digits => readDigits limit .tooLarge 0 digits

def maxSigned : Nat := Nat.pow 2 63 - 1

def maxUnsigned : Nat := Nat.pow 2 64 - 1

/-- A signed number of 64 bits, with an optional sign. -/
def readInt : List Char → Except NumberFault Int
  | [] => .error .emptyWhole
  | ['+'] => .error .strayCharacter
  | ['-'] => .error .strayCharacter
  | '-' :: digits => (readDigits (maxSigned + 1) .tooSmall 0 digits).map fun n => -(n : Int)
  | '+' :: digits => (readDigits maxSigned .tooLarge 0 digits).map Int.ofNat
  | digits => (readDigits maxSigned .tooLarge 0 digits).map Int.ofNat

end Whole

/-- The exact value of a real literal: `digits * 10 ^ exponent` with a sign, an infinity, or no
number at all, whose sign is kept. -/
inductive Literal where
  | finite (negative : Bool) (digits : Nat) (exponent : Int)
  | infinite (negative : Bool)
  | undefined (negative : Bool)
  deriving DecidableEq, Repr, Inhabited

namespace Literal

/-- ASCII lower case, the only case rule that named values need. -/
def lowered (cs : List Char) : List Char := cs.map Char.toLower

/-- The exponent of a literal: nothing, or `e` with an optional sign and at least one digit. -/
def readExponent : List Char → Option Int
  | [] => some 0
  | c :: rest =>
    if c = 'e' ∨ c = 'E' then
      let (negative, digits) := match rest with
        | '-' :: digits => (true, digits)
        | '+' :: digits => (false, digits)
        | digits => (false, digits)
      if digits.isEmpty ∨ !digits.all isDigit then none
      else some (if negative then -(digitsValue digits : Int) else digitsValue digits)
    else none

def readUnsigned (negative : Bool) (cs : List Char) : Option Literal :=
  let word := lowered cs
  if word = "inf".toList ∨ word = "infinity".toList then some (infinite negative)
  else if word = "nan".toList then some (undefined negative)
  else
    let whole := cs.takeWhile isDigit
    let afterWhole := cs.dropWhile isDigit
    let (fraction, afterFraction) := match afterWhole with
      | '.' :: rest => (rest.takeWhile isDigit, rest.dropWhile isDigit)
      | rest => ([], rest)
    if whole.isEmpty ∧ fraction.isEmpty then none
    else
      (readExponent afterFraction).map fun exponent =>
        finite negative (digitsValue (whole ++ fraction)) (exponent - fraction.length)

/-- A real literal, read whole. -/
def read (cs : List Char) : Except NumberFault Literal :=
  let value := match cs with
    | '-' :: rest => readUnsigned true rest
    | '+' :: rest => readUnsigned false rest
    | rest => readUnsigned false rest
  match cs, value with
  | [], _ => .error .emptyReal
  | _, some literal => .ok literal
  | _, none => .error .malformedReal

end Literal
end FogDispatch
