import FogDispatch.Text.Split

/-!
# Paths

Paths as texts and the parts that they name.  Empty pieces between slashes name nothing, and neither
does a point, unless the path starts with it.
-/

namespace FogDispatch

/-- A part of a path. -/
inductive PathPart where
  | root
  | here
  | parent
  | name (s : String)
  deriving DecidableEq, Repr

namespace Location

/-- The part of a piece; empty pieces name nothing, and a point names something only in front. -/
def part? (piece : List Char) : Option PathPart :=
  match piece with
  | [] => none
  | ['.'] => none
  | ['.', '.'] => some .parent
  | piece => some (.name (String.ofList piece))

def parts (path : String) : List PathPart :=
  match splitAll '/' path.toList with
  | [] :: rest =>
    if rest.isEmpty then [] else .root :: rest.filterMap part?
  | ['.'] :: rest => .here :: rest.filterMap part?
  | all => all.filterMap part?

def join (directory name : String) : String :=
  if name.startsWith "/" then name
  else if directory.isEmpty ∨ directory.endsWith "/" then directory ++ name
  else directory ++ "/" ++ name

/-- The last name of a path, if the path ends in a name. -/
def fileName? (path : String) : Option String :=
  match (parts path).getLast? with
  | some (.name s) => some s
  | _ => none

/-- The name of a directory for people: its last name, and the whole path if it has none. -/
def displayName (path : String) : String := (fileName? path).getD path

/-- A name before its last point and after it; a point in front does not count. -/
def splitExtension (name : List Char) : List Char × Option (List Char) :=
  let after := (name.reverse.takeWhile (· != '.')).reverse
  let stem := (name.reverse.dropWhile (· != '.')).reverse.dropLast
  if stem.isEmpty then (name, none) else (stem, some after)

def extension? (path : String) : Option String :=
  (fileName? path).bind fun name => (splitExtension name.toList).2.map String.ofList

/-- The path with another extension, if it has a last name. -/
def withExtension? (path extension : String) : Option String :=
  (fileName? path).map fun name =>
    let stem := String.ofList (splitExtension name.toList).1
    -- what stands in front of the last name stays as it is
    let tail := (path.toList.reverse.dropWhile (· == '/'))
    let front := String.ofList (tail.drop name.length).reverse
    front ++ stem ++ "." ++ extension

end Location

end FogDispatch
