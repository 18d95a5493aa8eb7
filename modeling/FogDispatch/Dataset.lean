import FogDispatch.Fault
import FogDispatch.Host
import FogDispatch.Job
import FogDispatch.Location
import FogDispatch.Plan
import FogDispatch.Text.Blank
import FogDispatch.Text.Groups
import FogDispatch.Text.Record

/-!
# Datasets

A dataset is a table of jobs and a table of tasks.  The tasks of a job follow each other in the
order of the job rows: the rows of tasks are joined greedily, each job taking the rows that carry
its id.  Submission times of jobs are offsets from the job before, those of tasks from their job.
-/

namespace FogDispatch

/-- The jobs and tasks of a dataset. -/
structure Dataset (α : Type) where
  name : String
  jobs : List Job
  /-- The tasks in the order of their rows. -/
  tasks : List (Task α)

/-- A row of a table, with its number in the file. -/
structure Row where
  number : Nat
  cells : List String
  deriving DecidableEq, Repr

namespace Row

/-- The cell of a column without the blanks around it. -/
def cell (row : Row) (column : Nat) : Except DatasetFault (List Char) :=
  match row.cells[column]? with
  | some text => .ok (trimBlanks text.toList)
  | none => .error (.row row.number (.missingColumn column))

def value {β : Type} (row : Row) (column : Nat) (read : List Char → Except NumberFault β) :
    Except DatasetFault β := do
  let cs ← row.cell column
  match read cs with
  | .ok value => return value
  | .error fault =>
    .error (.row row.number (.badCell column (String.ofList cs) fault))

def natural (row : Row) (column : Nat) : Except DatasetFault Nat :=
  row.value column (Whole.readNat Whole.maxUnsigned)

def real {α : Type} [Arith α] (row : Row) (column : Nat) : Except DatasetFault α := do
  return Arith.ofLiteral (← row.value column Literal.read)

/-- The rows of a table below its header, which is the first row of the file. -/
def ofTable (rows : List (List String)) : List Row :=
  rows.mapIdx fun index cells => ⟨index + 2, cells⟩

end Row

/-- The columns of the two tables. -/
inductive Column where
  | jobId
  | jobSubmission
  | jobMaxParallel
  | jobGroups
  | taskId
  | taskJob
  | taskLength
  | taskMemory
  | taskStorage
  | taskSubmission
  | taskDeadline
  | taskPriority
  deriving DecidableEq, Repr

namespace Column
/-- The place of a column, counted from zero. -/
def place : Column → Nat
  | jobId => 1
  | jobSubmission => 5
  | jobMaxParallel => 19
  | jobGroups => 21
  | taskId => 1
  | taskJob => 2
  | taskLength => 3
  | taskMemory => 4
  | taskStorage => 5
  | taskSubmission => 7
  | taskDeadline => 9
  | taskPriority => 17
end Column

namespace Dataset

variable {α : Type} [Arith α]

/-- The job of a row, and its submission offset. -/
def readJob (row : Row) : Except DatasetFault (α × Job) := do
  let id ← row.natural Column.jobId.place
  let offset ← row.real Column.jobSubmission.place
  let cs ← row.cell Column.jobGroups.place
  match Groups.read? cs with
  | none => .error (.row row.number .badGroups)
  | some groups =>
    let maxParallel ← row.natural Column.jobMaxParallel.place
    return (offset, Job.fresh ⟨id⟩ maxParallel groups)

def taskJob (row : Row) : Except DatasetFault JobId := do
  return ⟨← row.natural Column.taskJob.place⟩

/-- The task of a row, given its place and the submission time of its job. -/
def readTask (scale : α) (job : JobId) (jobOffset : α) (id : TaskId) (row : Row) :
    Except DatasetFault (Task α) := do
  let arrival : Time α := ⟨jobOffset + (← row.real Column.taskSubmission.place)⟩
  let level ← row.value Column.taskPriority.place (Whole.readNat 255)
  match Priority.ofLevel? level with
  | none => .error (.row row.number (.badPriority level))
  | some priority =>
    let localId ← row.natural Column.taskId.place
    let deadline : Time α := arrival + (⟨← row.real Column.taskDeadline.place⟩ : Span α)
    let length ← row.real Column.taskLength.place
    let memory ← row.real Column.taskMemory.place
    let storage ← row.real Column.taskStorage.place
    return {
      id := id
      job := job
      localId := localId
      priority := priority
      arrival := arrival
      deadline := deadline
      length := length * scale
      memory := memory
      storage := storage
      node := none
      decisionCost := Span.zero
      start := none
      finish := none }

/-- The tasks of a job out of the next task rows, numbered from `next`, and the rows left over. -/
def takeTasks (scale : α) (job : JobId) (jobOffset : α) (next : Nat) :
    List Row → Except DatasetFault (List (Task α) × List Row)
  | [] => .ok ([], [])
  | row :: rest => do
    if (← taskJob row) = job then
      let task ← readTask scale job jobOffset ⟨next⟩ row
      let (tasks, left) ← takeTasks scale job jobOffset (next + 1) rest
      return (task :: tasks, left)
    else return ([], row :: rest)

end Dataset

/-- Which of the two tables something is about. -/
inductive DatasetTable where
  | jobs
  | tasks
  deriving DecidableEq, Repr

namespace DatasetTable
def fileName : DatasetTable → String
  | jobs => "Jobs.csv"
  | tasks => "Tasks.csv"
end DatasetTable

namespace Dataset

variable {α : Type} [Arith α]

def about {β : Type} (table : DatasetTable) (result : Except DatasetFault β) :
    Except (DatasetTable × DatasetFault) β :=
  result.mapError fun fault => (table, fault)

/-- Joins job rows and task rows.  `offset` is the submission time of the job before and `next` the
number of tasks taken so far. -/
def joinRows (scale : α) (offset : α) (next : Nat) :
    List Row → List Row → Except (DatasetTable × DatasetFault) (List Job × List (Task α))
  | [], [] => .ok ([], [])
  | [], stray :: _ => do
    let job ← about .tasks (stray.cell Column.taskJob.place)
    .error (.tasks, .row stray.number (.strayTask (String.ofList job)))
  | jobRow :: jobRows, taskRows => do
    let (submission, job) ← about .jobs (readJob jobRow)
    let offset := offset + submission
    let (tasks, left) ← about .tasks (takeTasks scale job.id offset next taskRows)
    let (jobs, more) ← joinRows scale offset (next + tasks.length) jobRows left
    return (job :: jobs, tasks ++ more)

/-- The rows of a table of a dataset directory. -/
def readTable (directory : String) (table : DatasetTable) (content : Option ByteArray) :
    Except Fault (List Row) :=
  match content with
  | none => .error (.dataset (Location.join directory table.fileName) .missingFile)
  | some bytes =>
    match readRows? bytes.toList with
    | some rows => .ok (Row.ofTable rows)
    | none => .error .badRecords

/-- The dataset of a directory, given the contents of its two files. -/
def ofContents (plan : DatasetPlan α) (jobs tasks : Option ByteArray) :
    Except Fault (Dataset α) := do
  let jobRows ← readTable plan.path .jobs jobs
  let taskRows ← readTable plan.path .tasks tasks
  match joinRows plan.runtimeScale Arith.zero 0 jobRows taskRows with
  | .ok (jobs, tasks) => return ⟨Location.displayName plan.path, jobs, tasks⟩
  | .error (table, fault) =>
    .error (.dataset (Location.join plan.path table.fileName) fault)

def load {m : Type → Type} [Monad m] (host : Host m) (plan : DatasetPlan α) :
    m (Except Fault (Dataset α)) := do
  let jobs ← host.read (Location.join plan.path DatasetTable.jobs.fileName)
  let tasks ← host.read (Location.join plan.path DatasetTable.tasks.fileName)
  return ofContents plan jobs tasks

end Dataset
end FogDispatch
