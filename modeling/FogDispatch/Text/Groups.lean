import FogDispatch.Number.Literal

/-!
# Lists of co-scheduling groups

The text of the groups of a job: a list of lists of numbers in brackets, with commas between them
and blanks anywhere except inside a number.  A number has no sign and no superfluous zeros, and fits
into 64 bits.
-/

namespace FogDispatch.Groups

/-- A mark or a number. -/
inductive Token where
  | opening
  | closing
  | comma
  | number (n : Nat)
  deriving DecidableEq, Repr

def isGap (c : Char) : Bool := c == ' ' || c == '\t' || c == '\n' || c == '\r'

def numberOf? (digits : List Char) : Option Nat :=
  if digits.length ≠ 1 ∧ digits.head? = some '0' then none
  else if digitsValue digits ≤ Whole.maxUnsigned then some (digitsValue digits)
  else none

/-- The tokens of a text; `digits` are the ones read of a number so far. -/
def tokens? (digits : List Char) : List Char → Option (List Token)
  | [] => if digits.isEmpty then some [] else (numberOf? digits).map ([.number ·])
  | c :: rest =>
    if isDigit c then tokens? (digits ++ [c]) rest
    else do
      let before ← if digits.isEmpty then pure [] else (numberOf? digits).map ([Token.number ·])
      let here ←
        if c = '[' then some [Token.opening]
        else if c = ']' then some [Token.closing]
        else if c = ',' then some [Token.comma]
        else if isGap c then some []
        else none
      return before ++ here ++ (← tokens? [] rest)

/-- Where a reader of groups stands. -/
inductive Phase where
  | start
  /-- After the outer bracket. -/
  | firstGroup
  /-- After the bracket of a group. -/
  | firstNumber
  | afterNumber
  | nextNumber
  | afterGroup
  | nextGroup
  | done
  deriving DecidableEq, Repr

/-- What a reader of groups has read. -/
structure Reader where
  phase : Phase
  groups : List (List Nat)
  current : List Nat

namespace Reader

def endGroup (r : Reader) : Reader := ⟨.afterGroup, r.groups ++ [r.current], []⟩

def step? (r : Reader) (token : Token) : Option Reader :=
  match r.phase, token with
  | .start, .opening => some { r with phase := .firstGroup }
  | .firstGroup, .opening => some { r with phase := .firstNumber }
  | .firstGroup, .closing => some { r with phase := .done }
  | .firstNumber, .number n => some { r with phase := .afterNumber, current := [n] }
  | .firstNumber, .closing => some r.endGroup
  | .afterNumber, .comma => some { r with phase := .nextNumber }
  | .afterNumber, .closing => some r.endGroup
  | .nextNumber, .number n => some { r with phase := .afterNumber, current := r.current ++ [n] }
  | .afterGroup, .comma => some { r with phase := .nextGroup }
  | .afterGroup, .closing => some { r with phase := .done }
  | .nextGroup, .opening => some { r with phase := .firstNumber }
  | _, _ => none

end Reader

def read? (cs : List Char) : Option (List (List Nat)) := do
  let tokens ← tokens? [] cs
  let final ← tokens.foldlM Reader.step? ⟨.start, [], []⟩
  if final.phase = .done then return final.groups else none

end FogDispatch.Groups
