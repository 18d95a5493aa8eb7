import FogDispatch.Job
import FogDispatch.Metrics

/-!
# The context of an episode

The tasks of an episode with what has become of them, and everything else that decisions read and
change: devices, jobs, metrics, and the list of placed tasks that are not yet released.  A finished
task is released by a sweep, which frees its place in its job and enters its completion.
-/

namespace FogDispatch

/-- The state that the gateway, the strategy and the metrics share during a run. -/
structure Context (α : Type) where
  /-- The tasks of the episode, each at the place of its id. -/
  tasks : List (Task α)
  topology : Topology α
  jobs : JobTable
  network : Network α
  metrics : RunMetrics α
  /-- The placed tasks that are not yet released, in the order of placement. -/
  running : List TaskId
  /-- Whether only tasks that their jobs admit are offered. -/
  respectJobs : Bool

namespace Context

variable {α : Type} [Arith α]

/-- The context of a run before its first episode. -/
def fresh (topology : Topology α) (network : Network α) (respectJobs : Bool) : Context α where
  tasks := []
  topology := topology
  jobs := JobTable.empty
  network := network
  metrics := RunMetrics.empty
  running := []
  respectJobs := respectJobs

/-- The context at the start of an episode: the given tasks and jobs, and idle nodes. -/
def startEpisode (ctx : Context α) (episode : Nat) (jobs : List Job) (tasks : List (Task α)) :
    Context α :=
  { ctx with
    tasks := tasks
    jobs := JobTable.ofList jobs
    topology := ctx.topology.reset
    running := []
    metrics := ctx.metrics.startEpisode episode }

def task? (ctx : Context α) (id : TaskId) : Option (Task α) := ctx.tasks[id.index]?

def modifyTask (ctx : Context α) (id : TaskId) (change : Task α → Task α) : Context α :=
  { ctx with tasks := ctx.tasks.modify id.index change }

def measure (ctx : Context α) (change : EpisodeMetrics α → EpisodeMetrics α) : Context α :=
  { ctx with metrics := ctx.metrics.modify change }

def admits (ctx : Context α) (id : TaskId) : Bool :=
  !ctx.respectJobs || match ctx.task? id with
    | some task => ctx.jobs.admits task
    | none => false

/-- Whether a task is done no later than `now`. -/
def isFinishedBy (ctx : Context α) (now : Time α) (id : TaskId) : Bool :=
  match ctx.task? id with
  | some task => task.isFinishedBy now
  | none => false

/-- Frees the place of a task in its job and enters its completion. -/
def release (ctx : Context α) (id : TaskId) : Context α :=
  match ctx.task? id with
  | some task =>
    { ctx with jobs := ctx.jobs.removeRunning task }.measure (·.recordCompletion task)
  | none => ctx

/-- Releases every placed task that is done by `now`, in the order of placement. -/
def releaseFinished (ctx : Context α) (now : Time α) : Context α :=
  let released := (ctx.running.filter (ctx.isFinishedBy now)).foldl release ctx
  { released with running := ctx.running.filter fun id => !ctx.isFinishedBy now id }

/-- The last sweep and the closing of the episode. -/
def finishEpisode (ctx : Context α) (clock : Time α) : Context α :=
  let swept := ctx.releaseFinished clock
  { swept with metrics := swept.metrics.finishEpisode clock swept.topology }

end Context
end FogDispatch
