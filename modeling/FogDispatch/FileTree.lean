import FogDispatch.Location

/-!
# Files in memory

A file system held in memory: what a run sees of the files it reads and writes when nothing outside
of its working directory is there.
-/

namespace FogDispatch

/-- A file system in memory.  Directories and files are named by the names on the way to them from
the working directory, which is always there. -/
structure FileTree where
  directories : List (List String)
  files : List (List String × ByteArray)

namespace FileTree

def empty : FileTree := ⟨[], []⟩

def isDirectory (tree : FileTree) (place : List String) : Bool :=
  place.isEmpty || tree.directories.contains place

def content? (tree : FileTree) (place : List String) : Option ByteArray :=
  (tree.files.find? (·.1 == place)).map Prod.snd

/-- One part further from a place, which has to be a directory.  Nothing outside of the working
directory is there. -/
def follow? (tree : FileTree) (place : List String) (part : PathPart) : Option (List String) :=
  if tree.isDirectory place then
    match part with
    | .root => none
    | .here => some place
    | .parent => if place.isEmpty then none else some place.dropLast
    | .name s => some (place ++ [s])
  else none

def resolve? (tree : FileTree) (path : String) : Option (List String) :=
  (Location.parts path).foldlM tree.follow? []

def read? (tree : FileTree) (path : String) : Option ByteArray :=
  (tree.resolve? path).bind tree.content?

/-- One part further, where a missing directory is made. -/
def enter? (state : FileTree × List String) (part : PathPart) : Option (FileTree × List String) :=
  let (tree, place) := state
  (tree.follow? place part).bind fun next =>
    if tree.isDirectory next then some (tree, next)
    else if (tree.content? next).isSome then none
    else some ({ tree with directories := tree.directories ++ [next] }, next)

/-- Makes a directory and all directories on the way to it. -/
def createDirectory? (tree : FileTree) (path : String) : Option FileTree :=
  ((Location.parts path).foldlM enter? (tree, [])).map Prod.fst

/-- Writes a file in the place of an earlier one.  Its directory has to be there. -/
def write? (tree : FileTree) (path : String) (content : ByteArray) : Option FileTree :=
  (tree.resolve? path).bind fun place =>
    if tree.isDirectory place ∨ !tree.isDirectory place.dropLast then none
    else some { tree with
      files := tree.files.filter (fun file => file.1 != place) ++ [(place, content)] }

/-- The names and contents of the files of a directory, if it is there. -/
def list? (tree : FileTree) (path : String) : Option (List (String × ByteArray)) :=
  (tree.resolve? path).bind fun place =>
    if tree.isDirectory place then
      some (tree.files.filterMap fun (file, content) =>
        match file.getLast? with
        | some name => if file.dropLast = place then some (name, content) else none
        | none => none)
    else none

end FileTree

end FogDispatch
