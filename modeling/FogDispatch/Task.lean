import FogDispatch.Clock

/-!
# Tasks

A task is a unit of work with a deadline.  It belongs to a job, has a priority from one to five, and
during an episode it may be placed on a node, started and finished; each of these three marks is set
at most once.
-/

namespace FogDispatch

/-- The place of a task in the list of tasks of an episode. -/
structure TaskId where
  index : Nat
  deriving DecidableEq, Repr, Inhabited

/-- The number of a job in its dataset. -/
structure JobId where
  number : Nat
  deriving DecidableEq, Repr, Inhabited

/-- The place of a node in a topology. -/
structure NodeId where
  index : Nat
  deriving DecidableEq, Repr, Inhabited

/-- The number of a group of nodes that share a link to the gateway. -/
structure DatacenterId where
  number : Nat
  deriving DecidableEq, Repr, Inhabited

namespace TaskId
def text (id : TaskId) : String := s!"T{id.index}"
end TaskId

namespace JobId
def text (id : JobId) : String := s!"J{id.number}"
end JobId

namespace NodeId
def text (id : NodeId) : String := s!"N{id.index}"
end NodeId

namespace DatacenterId
def text (id : DatacenterId) : String := s!"DC{id.number}"
end DatacenterId

/-- A priority from one, the lowest, to five, the highest. -/
structure Priority where
  level : Nat
  one_le : 1 ≤ level := by decide
  le_five : level ≤ 5 := by decide
  deriving DecidableEq, Repr

instance : Inhabited Priority := ⟨{ level := 1 }⟩

namespace Priority

def levels : Nat := 5

/-- The priority of a level, if there is one. -/
def ofLevel? (level : Nat) : Option Priority :=
  if h : 1 ≤ level ∧ level ≤ 5 then some ⟨level, h.1, h.2⟩ else none

/-- All priorities, the lowest first. -/
def all : List Priority := (List.range levels).filterMap fun i => ofLevel? (i + 1)

/-- The share of the highest level, which weighs rewards. -/
def weight {α : Type} [Arith α] (p : Priority) : α :=
  Arith.ofNat p.level / Arith.ofNat levels

def levelText (level : Nat) : String := s!"P{level}"

def text (p : Priority) : String := levelText p.level

end Priority

/-- Counts per priority, the lowest level first. -/
abbrev PriorityTally := Vector Nat 5

namespace PriorityTally

def zero : PriorityTally := Vector.replicate 5 0

def count (tally : PriorityTally) (p : Priority) : Nat :=
  tally.get ⟨p.level - 1, by have := p.one_le; have := p.le_five; omega⟩

def bump (tally : PriorityTally) (p : Priority) : PriorityTally :=
  tally.set (p.level - 1) (tally.count p + 1) (by have := p.one_le; have := p.le_five; omega)

def total (tally : PriorityTally) : Nat := tally.toList.foldr (· + ·) 0

def plus (s t : PriorityTally) : PriorityTally := Vector.zipWith (· + ·) s t

end PriorityTally

/-- A unit of work with a deadline. -/
structure Task (α : Type) where
  id : TaskId
  job : JobId
  /-- The id inside the dataset, to which co-scheduling groups refer. -/
  localId : Nat
  priority : Priority
  arrival : Time α
  /-- The point in time by which the task has to be done. -/
  deadline : Time α
  /-- The computing demand in million instructions. -/
  length : α
  memory : α
  /-- The storage demand, which is also the amount of data moved to the node. -/
  storage : α
  node : Option NodeId
  decisionCost : Span α
  start : Option (Time α)
  finish : Option (Time α)

namespace Task

variable {α : Type} [Arith α]

def window (task : Task α) : Span α := task.deadline - task.arrival

/-- Whether the task is done no later than `now`. -/
def isFinishedBy (task : Task α) (now : Time α) : Bool :=
  match task.finish with
  | some finish => finish.isBy now
  | none => false

def text (task : Task Binary64) : String :=
  "Task(" ++ task.id.text ++ ", " ++ task.job.text ++ ", " ++ task.priority.text ++ ", @" ++
    task.arrival.text ++ "<" ++ task.length.fixed 2 ++ "<" ++ task.deadline.text ++ ")"

end Task
end FogDispatch
