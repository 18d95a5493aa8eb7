import FogDispatch.Task

/-!
# Jobs and their co-scheduling rules

A job bounds how many of its tasks run at a time, and lists groups of tasks that may run together.
A task that stands in a group joins only tasks of the first group that holds it; a task that stands
in no group joins any.
-/

namespace FogDispatch

/-- The co-scheduling rules of a job and its running tasks. -/
structure Job where
  id : JobId
  maxParallel : Nat
  /-- The groups of dataset ids that may run together. -/
  groups : List (List Nat)
  /-- The running tasks, with their dataset ids. -/
  running : List (TaskId × Nat)
  deriving DecidableEq, Repr

namespace Job

def fresh (id : JobId) (maxParallel : Nat) (groups : List (List Nat)) : Job :=
  ⟨id, maxParallel, groups, []⟩

def groupOf? (job : Job) (localId : Nat) : Option (List Nat) :=
  job.groups.find? (·.contains localId)

/-- Whether a task with a dataset id may join the running ones. -/
def admits (job : Job) (localId : Nat) : Bool :=
  job.running.length < job.maxParallel &&
    match job.groupOf? localId with
    | some group => job.running.all fun entry => group.contains entry.2
    | none => true

/-- The job with a task running, entered once. -/
def enter (job : Job) (id : TaskId) (localId : Nat) : Job :=
  if job.running.any (·.1 == id) then job
  else { job with running := job.running ++ [(id, localId)] }

def leave (job : Job) (id : TaskId) : Job :=
  { job with running := job.running.filter (·.1 != id) }

end Job

/-- The jobs of an episode, at most one of each id. -/
structure JobTable where
  jobs : List Job
  deriving DecidableEq, Repr

namespace JobTable

def empty : JobTable := ⟨[]⟩

/-- Registers a job in the place of an earlier one with its id. -/
def insert (table : JobTable) (job : Job) : JobTable :=
  ⟨table.jobs.filter (·.id != job.id) ++ [job]⟩

/-- The table of a list of jobs; of jobs with one id the last one counts. -/
def ofList (jobs : List Job) : JobTable := jobs.foldl insert empty

def find? (table : JobTable) (id : JobId) : Option Job :=
  table.jobs.find? (·.id == id)

def modify (table : JobTable) (id : JobId) (change : Job → Job) : JobTable :=
  ⟨table.jobs.map fun job => if job.id = id then change job else job⟩

variable {α : Type}

/-- Whether a task may run now.  Tasks of unknown jobs are free. -/
def admits (table : JobTable) (task : Task α) : Bool :=
  match table.find? task.job with
  | some job => job.admits task.localId
  | none => true

def addRunning (table : JobTable) (task : Task α) : JobTable :=
  table.modify task.job (·.enter task.id task.localId)

def removeRunning (table : JobTable) (task : Task α) : JobTable :=
  table.modify task.job (·.leave task.id)

end JobTable
end FogDispatch
