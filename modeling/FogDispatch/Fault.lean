import FogDispatch.Topology

/-!
# Faults

Everything that can end an operation, by cause, and the wording of each cause.
-/

namespace FogDispatch

/-- What is wrong with one row of a dataset. -/
inductive RowFault where
  | missingColumn (column : Nat)
  | badCell (column : Nat) (cell : String) (fault : NumberFault)
  | badGroups
  | badPriority (level : Nat)
  | strayTask (job : String)
  deriving DecidableEq, Repr

namespace RowFault
def message : RowFault → String
  | missingColumn column => s!"missing column {column}"
  | badCell column cell fault => s!"column {column} `" ++ cell ++ "`: " ++ fault.message
  | badGroups => "co-scheduling groups"
  | badPriority level => s!"priority {level} is outside 1..=5"
  | strayTask job => s!"task of job {job} does not follow its job row"
end RowFault

/-- What is wrong with a file of a dataset.  Rows are counted as in the file, the header first. -/
inductive DatasetFault where
  | missingFile
  | row (number : Nat) (fault : RowFault)
  deriving DecidableEq, Repr

namespace DatasetFault
def message : DatasetFault → String
  | missingFile => "file not found"
  | row number fault => s!"row {number}: " ++ fault.message
end DatasetFault

/-- What is wrong with a decision answer. -/
inductive AnswerFault where
  | missingSeparator
  | missingComma
  | badField (field : String) (fault : NumberFault)
  deriving DecidableEq, Repr

namespace AnswerFault
def message : AnswerFault → String
  | missingSeparator => "missing `d` separator"
  | missingComma => "expected `<time>,<cpu>`"
  | badField field fault => "`" ++ field ++ "`: " ++ fault.message
end AnswerFault

/-- Why an operation ended without a result. -/
inductive Fault where
  /-- The settings can not be read as a plan. -/
  | badSettings
  /-- A time limit is asked for, but its time is not given. -/
  | missingLimit
  /-- A setting is to be written to a place before the start of a list. -/
  | outOfList
  /-- The file system refused. -/
  | storage
  /-- A table of records is not text. -/
  | badRecords
  /-- The decision service can not be reached. -/
  | unreachable
  | dataset (path : String) (fault : DatasetFault)
  | topology (fault : TopologyFault)
  /-- The decision service did not answer. -/
  | noAnswer (attempts : Nat)
  | answer (raw : String) (fault : AnswerFault)
  | action (chosen : List Int) (candidates : Nat)
  /-- The events allotted to an episode ran out. -/
  | unfinished
  deriving DecidableEq, Repr

namespace Fault

def actionText (numbers : List Int) : String :=
  "[" ++ String.intercalate ", " (numbers.map toString) ++ "]"

/-- The wording of a fault, where it is this library's own. -/
def message? : Fault → Option String
  | dataset path fault => some ("malformed dataset " ++ path ++ ": " ++ fault.message)
  | topology fault => some ("invalid topology: " ++ fault.message)
  | noAnswer attempts => some s!"decision service did not answer after {attempts} attempts"
  | answer raw fault => some ("malformed decision response `" ++ raw ++ "`: " ++ fault.message)
  | action chosen candidates =>
    some ("decision service chose action " ++ actionText chosen ++
      s!" outside of {candidates} candidates")
  | badSettings | missingLimit | outOfList | storage | badRecords | unreachable | unfinished => none

/-- Whether nothing can go on after a fault, not even with other settings. -/
def isFatal : Fault → Bool
  | missingLimit | outOfList => true
  | _ => false

/-- The exit code of a call that ends in a fault. -/
def exitCode (fault : Fault) : Nat := if fault.isFatal then 101 else 1

end Fault
end FogDispatch
