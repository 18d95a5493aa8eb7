import FogDispatch.Strategy

/-!
# The gateway

The gateway admits every task.  It queues arrivals and runs one decision at a time: while the time
of a decision passes it only takes note of what happens.  Capacity that is freed meanwhile makes it
look at its queue again.
-/

namespace FogDispatch

/-- Whether a decision is under way. -/
inductive GatewayState where
  | idle
  | deciding
  deriving DecidableEq, Repr

namespace GatewayState
def text : GatewayState → String
  | idle => "idle"
  | deciding => "deciding"
end GatewayState

/-- The admission point of all tasks. -/
structure Gateway (α : Type) where
  state : GatewayState
  /-- The tasks that wait for a node, the oldest first. -/
  pending : List TaskId
  /-- Whether the last decision found no node able to take a task. -/
  allNodesBusy : Bool
  /-- Whether capacity was freed while deciding. -/
  recheck : Bool
  strategy : Strategy α
  deriving DecidableEq, Repr

namespace Gateway

variable {α : Type} [Arith α]

def fresh (strategy : Strategy α) : Gateway α := ⟨.idle, [], false, false, strategy⟩

def reset (gateway : Gateway α) : Gateway α := fresh gateway.strategy.reset

/-- The number of tasks that never got a node. -/
def unplaced (gateway : Gateway α) : Nat := gateway.pending.length

end Gateway

/-- Everything that changes while an episode runs. -/
structure Simulation (α : Type) where
  gateway : Gateway α
  context : Context α
  queue : EventQueue α

namespace Simulation

variable {α : Type} [Arith α] {m : Type → Type} [Monad m]

def modifyGateway (sim : Simulation α) (change : Gateway α → Gateway α) : Simulation α :=
  { sim with gateway := change sim.gateway }

/-- The queue with a placed task on its way to its node. -/
def dispatch (sim : Simulation α) (decision : Decision α) : EventQueue α :=
  match decision.outcome with
  | .assigned task node transfer =>
    match sim.context.topology.node? node with
    | some target =>
      sim.queue.schedule (decision.cost + transfer) (.datacenter target.datacenter)
        (.taskSubmit task node)
    | none => sim.queue
  | _ => sim.queue

/-- What the gateway does about a decision: the decided task leaves the queue, a placed one is on
its way to its node, and the gateway wakes when the time of the decision has passed. -/
def enact (sim : Simulation α) (decision : Decision α) : Simulation α :=
  { sim with
    gateway :=
      { sim.gateway with
        state := .deciding
        pending := match decision.task? with
          | some task => sim.gateway.pending.filter (· != task)
          | none => sim.gateway.pending
        allNodesBusy := decision.isNoCapacity
        recheck := false }
    queue := (sim.dispatch decision).schedule decision.cost .gateway .gatewayWake }

/-- One decision cycle of the gateway; nothing happens if no pending task can be decided on. -/
def decide (sim : Simulation α) (policy : Policy m α) : m (Except Fault Unit × Simulation α) := do
  let cycle ← sim.gateway.strategy.decide sim.gateway.pending sim.context policy sim.queue.now
  let after : Simulation α :=
    { sim with
      gateway := { sim.gateway with strategy := cycle.strategy }
      context := cycle.context }
  match cycle.result with
  | .error fault => return (.error fault, after)
  | .ok none => return (.ok (), after)
  | .ok (some decision) => return (.ok (), after.enact decision)

/-- A decision if the gateway is free, and a note of freed capacity otherwise. -/
def decideOrRecheck (sim : Simulation α) (policy : Policy m α) :
    m (Except Fault Unit × Simulation α) :=
  match sim.gateway.state with
  | .idle => sim.decide policy
  | .deciding => return (.ok (), sim.modifyGateway fun g => { g with recheck := true })

def onArrival (sim : Simulation α) (policy : Policy m α) (task : TaskId) :
    m (Except Fault Unit × Simulation α) :=
  let queued := sim.modifyGateway fun g => { g with pending := g.pending ++ [task] }
  if queued.gateway.state = .idle ∧ queued.context.topology.anyCandidateIdle then
    queued.decide policy
  else return (.ok (), queued)

def onWake (sim : Simulation α) (policy : Policy m α) : m (Except Fault Unit × Simulation α) :=
  let again := !sim.gateway.allNodesBusy || sim.gateway.recheck
  let awake := sim.modifyGateway fun g => { g with state := .idle, recheck := false }
  if again then awake.decide policy else return (.ok (), awake)

/-- A node is done with its task.  A free gateway looks at its queue after everything else that
happens now. -/
def onFinished (sim : Simulation α) (task : TaskId) (node : NodeId) : Simulation α :=
  let now := sim.queue.now
  let marked := sim.context.modifyTask task fun t => { t with finish := some now }
  let freed : Simulation α :=
    { sim with context := { marked with topology := marked.topology.markIdle node } }
  match sim.gateway.state with
  | .idle => { freed with queue := freed.queue.schedule Span.zero .gateway .decisionDue }
  | .deciding => freed.modifyGateway fun g => { g with recheck := true }

/-- What the gateway does about a message.  A submitted task is no business of the gateway. -/
def handle (sim : Simulation α) (policy : Policy m α) (message : Message) :
    m (Except Fault Unit × Simulation α) :=
  match message with
  | .taskArrival task => sim.onArrival policy task
  | .gatewayWake => sim.onWake policy
  | .decisionDue => sim.decideOrRecheck policy
  | .taskFinished task node => return (.ok (), sim.onFinished task node)
  | .taskSubmit _ _ => return (.ok (), sim)

end Simulation
end FogDispatch
