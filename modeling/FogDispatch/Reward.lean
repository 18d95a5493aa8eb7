import FogDispatch.Task

/-!
# Rewards

A decision is scored by how much of the task's window its execution takes, weighted by the priority
of the task.
-/

namespace FogDispatch

variable {α : Type} [Arith α]

/-- The share of a window that an execution takes.  A task without slack uses all of it. -/
def usedShare (running window : Span α) : α :=
  if Arith.less Arith.zero window.value then running.value / window.value else Arith.one

/-- The reward of a decision: what is left of the window when the deadline is met, and what was
used of it, at most all, as a penalty when it is missed. -/
def reward (priority : Priority) (running window : Span α) (missed : Bool) : α :=
  let used := usedShare running window
  if missed then -(priority.weight : α) * Arith.smaller used Arith.one
  else priority.weight * (Arith.one - used)

end FogDispatch
