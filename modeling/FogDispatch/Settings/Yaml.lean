import FogDispatch.Number.Hexadecimal
import FogDispatch.Settings.Value

/-!
# Settings as a listing

The settings written as an indented document, one name or item a line.  A text stands without quotes
only where it can be taken for nothing else.
-/

namespace FogDispatch.Settings.Yaml

/-- Texts that would be read as something else than texts. -/
def reserved : List String := ["", "~", "null", "true", "false", "y", "n", "yes", "no", "on", "off"]

/-- Whether a character is a letter of the ASCII alphabet. -/
def isLetter (c : Char) : Bool := ('a' ≤ c && c ≤ 'z') || ('A' ≤ c && c ≤ 'Z')

/-- Whether a text may stand without quotes: it starts with a letter and goes on with letters,
digits and marks that mean nothing between them. -/
def isPlain (s : String) : Bool :=
  !reserved.contains (s.map Char.toLower) &&
    match s.toList with
    | [] => false
    | first :: rest =>
      isLetter first && rest.all fun c => isLetter c || isDigit c || ['_', '-', '/', '.'].contains c

def escape (c : Char) : List Char :=
  if c = '"' ∨ c = '\\' then ['\\', c]
  else if c = '\n' then ['\\', 'n']
  else if c = '\t' then ['\\', 't']
  else if c = '\r' then ['\\', 'r']
  else if c.toNat < 0x20 then
    ['\\', 'x', hexDigit 'A' (c.toNat / 16), hexDigit 'A' (c.toNat % 16)]
  else [c]

/-- A text, in quotes where it needs them. -/
def scalar (s : String) : String :=
  if isPlain s then s else "\"" ++ String.ofList (s.toList.flatMap escape) ++ "\""

def numbers : RealStyle :=
  { positional := some (-5, 15), pointed := true, plus := false, tie := .toEven,
    undefined := ".nan", positiveInfinity := ".inf", negativeInfinity := "-.inf" }

/-- The text of a setting that fits on its line. -/
def inline? : Value → Option String
  | .nothing => some "~"
  | .flag b => some (if b then "true" else "false")
  | .whole n => some (toString n)
  | .real a => some (numbers.write a)
  | .text s => some (scalar s)
  | .list items => if items.isEmpty then some "[]" else none
  | .table entries => if entries.isEmpty then some "\x7b\x7d" else none

def indented (lines : List String) : List String := lines.map ("  " ++ ·)

mutual

def lines : Value → List String
  | .nothing => ["~"]
  | .flag b => [if b then "true" else "false"]
  | .whole n => [toString n]
  | .real a => [numbers.write a]
  | .text s => [scalar s]
  | .list items => if items.isEmpty then ["[]"] else itemLines items
  | .table entries => if entries.isEmpty then ["\x7b\x7d"] else entryLines entries

/-- The lines of the items of a list: the first line of each has a dash in front. -/
def itemLines : List Value → List String
  | [] => []
  | item :: rest =>
    (match lines item with
      | first :: more => ("- " ++ first) :: indented more
      | [] => []) ++ itemLines rest

def entryLines : List (String × Value) → List String
  | [] => []
  | (name, value) :: rest =>
    (match inline? value with
      | some text => [scalar name ++ ": " ++ text]
      | none => (scalar name ++ ":") :: indented (lines value)) ++ entryLines rest

end

def write (value : Value) : String :=
  String.join (("---" :: lines value).map (· ++ "\n"))

end FogDispatch.Settings.Yaml
