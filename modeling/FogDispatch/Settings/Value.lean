import FogDispatch.Number.Notation

/-!
# Values of settings

A setting is a flag, a number, a text, a list or a table of named settings, or nothing where a list
was padded.  A path names a place by keys and by places in lists, which count from the end when they
are negative.  A table written to a place is merged into what is there, name by name; anything else
replaces what is there.
-/

namespace FogDispatch.Settings

/-- Names and what they stand for, in the order in which they came. -/
abbrev Association (β : Type) := List (String × β)

namespace Association

variable {β : Type}

def get? (name : String) : Association β → Option β
  | [] => none
  | (other, value) :: rest => if other = name then some value else get? name rest

/-- Sets a name, in its place if it is there and at the end otherwise. -/
def put (name : String) (value : β) : Association β → Association β
  | [] => [(name, value)]
  | (other, old) :: rest =>
    if other = name then (other, value) :: rest else (other, old) :: put name value rest

end Association

/-- A setting. -/
inductive Value where
  | nothing
  | flag (b : Bool)
  | whole (n : Int)
  | real (a : Binary64)
  | text (s : String)
  | list (items : List Value)
  | table (entries : List (String × Value))
  deriving Inhabited

/-- The entries of a table, each name at most once. -/
abbrev Entries := Association Value

def Entries.erase (name : String) (entries : Entries) : Entries :=
  entries.filter fun entry => entry.1 != name

namespace Value

/-- The entries of a table; anything else has none. -/
def entries : Value → Entries
  | .table entries => entries
  | _ => []

/-- The items of a list; anything else has none. -/
def items : Value → List Value
  | .list items => items
  | _ => []

mutual

/-- Writes a setting under a name.  What is no table becomes one. -/
def mergeKey (target : Value) (name : String) : Value → Value
  | .table incoming =>
    let child := (target.entries.get? name).getD (.table [])
    .table (target.entries.put name (mergeAll child incoming))
  | value => .table (target.entries.put name value)

/-- Writes settings under their names, one after the other. -/
def mergeAll (target : Value) : List (String × Value) → Value
  | [] => target
  | (name, value) :: rest => mergeAll (mergeKey target name value) rest

end

end Value

/-- One step to a place. -/
inductive Step where
  | key (name : String)
  | index (place : Int)
  deriving DecidableEq, Repr

/-- A place: the name of a top level setting and the steps below it. -/
structure Path where
  root : String
  steps : List Step
  deriving DecidableEq, Repr

namespace Path

/-- Whether a character may stand in a name of a path. -/
def isNameChar (c : Char) : Bool :=
  ('a' ≤ c && c ≤ 'z') || ('A' ≤ c && c ≤ 'Z') || isDigit c || c == ' ' || c == '_' || c == '-'

/-- Whether a character may stand around the number of a place. -/
def isGap (c : Char) : Bool := c == ' ' || c == '\t'

/-- A name at the start of a text, and the rest. -/
def readName? (cs : List Char) : Option (String × List Char) :=
  let name := cs.takeWhile isNameChar
  if name.isEmpty then none else some (String.ofList name, cs.dropWhile isNameChar)

/-- The number of a place in brackets, whose opening bracket is read already. -/
def readIndex? (cs : List Char) : Option (Int × List Char) :=
  let cs := cs.dropWhile isGap
  let (negative, digits) := match cs with
    | '-' :: rest => (true, rest)
    | rest => (false, rest)
  let number := digits.takeWhile isDigit
  let value : Int := if negative then -(digitsValue number : Int) else digitsValue number
  match (digits.dropWhile isDigit).dropWhile isGap with
  | ']' :: rest =>
    if number.isEmpty ∨ value < -(Whole.maxSigned : Int) - 1 ∨ (Whole.maxSigned : Int) < value then
      none
    else some (value, rest)
  | _ => none

/-- The steps of a path; the first argument bounds their number. -/
def readSteps? : Nat → List Char → Option (List Step)
  | _, [] => some []
  | 0, _ => none
  | bound + 1, '.' :: rest => do
    let (name, rest) ← readName? rest
    return .key name :: (← readSteps? bound rest)
  | bound + 1, '[' :: rest => do
    let (place, rest) ← readIndex? rest
    return .index place :: (← readSteps? bound rest)
  | _, _ => none

/-- The path that a text spells, if it spells one. -/
def read? (text : String) : Option Path := do
  let (root, rest) ← readName? text.toList
  return ⟨root, ← readSteps? rest.length rest⟩

/-- The place in a list of a given length that an index names. -/
def placeOf? (length : Nat) (index : Int) : Option Nat :=
  let place := if 0 ≤ index then index else length + index
  if 0 ≤ place then some place.toNat else none

def stepTo? (value : Value) : Step → Option Value
  | .key name =>
    match value with
    | .table entries => Association.get? name entries
    | _ => none
  | .index index =>
    match value with
    | .list items => (placeOf? items.length index).bind (items[·]?)
    | _ => none

def get? (path : Path) (root : Value) : Option Value :=
  (Step.key path.root :: path.steps).foldlM stepTo? root

/-- Changes an item of a list, which is padded with nothing up to its place.  There is no place
before the first item. -/
def changeItem? (items : List Value) (index : Int) (change : Value → Option Value) :
    Option (List Value) := do
  let place ← placeOf? items.length index
  let item ← change (items[place]?.getD .nothing)
  return (items ++ List.replicate (place + 1 - items.length) Value.nothing).set place item

/-- Writes a setting at the end of some steps.  What is missing on the way, or of another kind, is
made anew. -/
def write? (value : Value) : List Step → Value → Option Value
  | [], _ => some value
  | [.key name], target => some (target.mergeKey name value)
  | .key name :: rest, target =>
    (write? value rest ((target.entries.get? name).getD .nothing)).map fun inner =>
      .table (target.entries.put name inner)
  | .index index :: rest, target =>
    (changeItem? target.items index (write? value rest)).map .list

def set? (path : Path) (value root : Value) : Option Value :=
  write? value (.key path.root :: path.steps) root

end Path
end FogDispatch.Settings
