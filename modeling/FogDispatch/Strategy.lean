import FogDispatch.Answer
import FogDispatch.Context
import FogDispatch.Event
import FogDispatch.Request
import FogDispatch.Reward

/-!
# Decisions

One decision cycle: finished tasks are released, the tasks that may run are offered to the policy
together with the state of the nodes, and the answer is carried out.  Both kinds of strategy share
this contract.  They differ in what is offered, the head of the queue or every admitted task, and in
how the action is read, as a node or as a task and a node.
-/

namespace FogDispatch

/-- What a decision did. -/
inductive Outcome (α : Type) where
  /-- The task leaves the queue and reaches its node after the decision and the transfer. -/
  | assigned (task : TaskId) (node : NodeId) (transfer : Span α)
  /-- The task would miss its deadline on its node and is given up. -/
  | dropped (task : TaskId)
  /-- The policy picked a busy node while another one is idle, so nothing moves. -/
  | rejected (node : NodeId)
  /-- No node can take any task. -/
  | noCapacity
  deriving DecidableEq, Repr

/-- A decision and the time it took. -/
structure Decision (α : Type) where
  outcome : Outcome α
  cost : Span α
  deriving DecidableEq, Repr

namespace Decision

variable {α : Type}

def isNoCapacity (decision : Decision α) : Bool :=
  match decision.outcome with
  | .noCapacity => true
  | _ => false

/-- The task that left the queue, if any. -/
def task? (decision : Decision α) : Option TaskId :=
  match decision.outcome with
  | .assigned task _ _ => some task
  | .dropped task => some task
  | .rejected _ => none
  | .noCapacity => none

end Decision

/-- A kind of strategy, its costs, and the number of the next decision. -/
structure Strategy (α : Type) where
  kind : StrategyKind
  costs : CostModel α
  number : Nat
  deriving DecidableEq, Repr

namespace Strategy

variable {α : Type} [Arith α]

def fresh (kind : StrategyKind) (costs : CostModel α) : Strategy α := ⟨kind, costs, 0⟩

def reset (strategy : Strategy α) : Strategy α := { strategy with number := 0 }

/-- The tasks that are offered out of the admitted ones. -/
def offered (kind : StrategyKind) (admitted : List TaskId) : List TaskId :=
  match kind with
  | .placement => admitted.take 1
  | .joint => admitted

/-- The six numbers by which a task is observed. -/
def taskView (task : Task α) : List α :=
  [task.length, task.memory, task.storage, task.arrival.value, task.deadline.value,
    Arith.ofNat task.priority.level]

/-- The four numbers by which a node is observed; the last one tells whether it is busy. -/
def nodeView (node : Node α) : List α :=
  [node.mips, node.ram, node.storage, if node.isIdle then Arith.zero else Arith.one]

/-- The observed state: the offered tasks, the clock and the candidate nodes. -/
def observation (ctx : Context α) (tasks : List TaskId) (now : Time α) : List α :=
  (tasks.filterMap ctx.task?).flatMap taskView ++
    now.value :: ctx.topology.candidates.flatMap nodeView

/-- The element at an index that may lie outside of the list. -/
def pick? {β : Type} (items : List β) (index : Int) : Option β :=
  if 0 ≤ index then items[index.toNat]? else none

/-- The task and the node that an action names among the offered tasks and the candidates. -/
def resolve? (kind : StrategyKind) (offered : List TaskId) (nodes : List NodeId) :
    List Int → Option (TaskId × NodeId)
  | [] => none
  | first :: rest =>
    match kind with
    | .placement => do
      let node ← pick? nodes first
      let task ← offered.head?
      return (task, node)
    | .joint => do
      let task ← pick? offered first
      let node ← pick? nodes (← rest.head?)
      return (task, node)

/-- Binds a task to a node unless it would miss its deadline there.  The time of the decision and
the transfer pass before the task starts. -/
def place (ctx : Context α) (task : Task α) (node : Node α) (now : Time α) (cost : Span α) :
    Outcome α × α × Context α :=
  let transfer := ctx.network.transferDelay node.datacenter task.storage
  let running := node.runningTime task.length
  let start := now + cost + transfer
  let missed := (start + running).isAfter task.deadline
  let score := reward task.priority running task.window missed
  if missed then
    (.dropped task.id, score, ctx.measure (·.recordViolation task))
  else
    let placed : Context α :=
      { ctx with
        topology := ctx.topology.markBusy node.id
        jobs := ctx.jobs.addRunning task
        running := ctx.running ++ [task.id] }
    (.assigned task.id node.id transfer, score,
      (placed.measure (·.addDeviceBusy node.host running)).modifyTask task.id fun t =>
        { t with node := some node.id, decisionCost := cost, start := some start })

end Strategy

/-- What a decision cycle leaves behind: its result, the strategy and the context.  After a fault
the state is what it was when the fault arose. -/
structure Cycle (α : Type) where
  result : Except Fault (Option (Decision α))
  strategy : Strategy α
  context : Context α

namespace Strategy

variable {α : Type} [Arith α] {m : Type → Type} [Monad m]

/-- Rewards the decision just taken and lets the policy learn from the one before it. -/
def feedback (strategy : Strategy α) (policy : Policy m α) (score : α) (state : List α) :
    m (Except Fault Unit × Strategy α) := do
  match ← policy.ask (.saveReward strategy.number score) with
  | .error fault => return (.error fault, strategy)
  | .ok _ =>
    let advanced := { strategy with number := strategy.number + 1 }
    if strategy.number = 0 then return (.ok (), advanced)
    else
      match ← policy.ask (.retrain (strategy.number - 1) state) with
      | .error fault => return (.error fault, strategy)
      | .ok _ => return (.ok (), advanced)

/-- Carries out an action on a node, as far as the node is idle. -/
def act (strategy : Strategy α) (ctx : Context α) (policy : Policy m α) (now : Time α)
    (state : List α) (cost : Span α) (task : Task α) (node : Node α) : m (Cycle α) := do
  if node.isIdle then
    let (outcome, score, placed) := place ctx task node now cost
    let rewarded := placed.measure (·.recordReward score)
    match ← strategy.feedback policy score state with
    | (.error fault, strategy) => return ⟨.error fault, strategy, rewarded⟩
    | (.ok (), strategy) => return ⟨.ok (some ⟨outcome, cost⟩), strategy, rewarded⟩
  else if ctx.topology.anyCandidateIdle then
    return ⟨.ok (some ⟨.rejected node.id, cost⟩), strategy, ctx⟩
  else
    return ⟨.ok (some ⟨.noCapacity, cost⟩), strategy, ctx⟩

/-- What follows an answer of the policy to the offered tasks. -/
def follow (strategy : Strategy α) (ctx : Context α) (policy : Policy m α) (now : Time α)
    (offered : List TaskId) (state : List α) (answer : Answer α) : m (Cycle α) := do
  let sampled := ctx.measure (·.recordSample now answer.cost answer.cpuPercent)
  let nodes := sampled.topology.candidateIds
  let refused : Cycle α := ⟨.error (.action answer.action nodes.length), strategy, sampled⟩
  if answer.isNoCapacity then
    return ⟨.ok (some ⟨.noCapacity, answer.cost⟩), strategy, sampled⟩
  else
    match resolve? strategy.kind offered nodes answer.action with
    | none => return refused
    | some (task, node) =>
      match sampled.task? task, sampled.topology.node? node with
      | some task, some node => strategy.act sampled policy now state answer.cost task node
      | _, _ => return refused

/-- One decision cycle at `now` over the pending tasks.  There is no decision, and the policy is not
asked, when no pending task is admitted. -/
def decide (strategy : Strategy α) (pending : List TaskId) (ctx : Context α) (policy : Policy m α)
    (now : Time α) : m (Cycle α) := do
  let swept := ctx.releaseFinished now
  let tasks := offered strategy.kind (pending.filter swept.admits)
  if tasks.isEmpty then return ⟨.ok none, strategy, swept⟩
  else
    let state := observation swept tasks now
    match ← policy.ask (.askDecision strategy.number state) with
    | .error fault => return ⟨.error fault, strategy, swept⟩
    | .ok raw =>
      match Answer.read strategy.costs raw with
      | .error fault => return ⟨.error fault, strategy, swept⟩
      | .ok answer => strategy.follow swept policy now tasks state answer

end Strategy
end FogDispatch
