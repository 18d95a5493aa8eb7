import FogDispatch.Gateway

/-!
# Episodes

An episode starts with the arrivals of all its tasks ahead of it and delivers one event after the
other until nothing is left or its time is up.  A datacenter runs each task it gets for the time the
task takes on its node.
-/

namespace FogDispatch

namespace Simulation

variable {α : Type} [Arith α] {m : Type → Type} [Monad m]

/-- What a datacenter does about a message: a submitted task finishes after its running time. -/
def runOnDatacenter (sim : Simulation α) (message : Message) : Simulation α :=
  match message with
  | .taskSubmit task node =>
    match sim.context.task? task, sim.context.topology.node? node with
    | some work, some target =>
      { sim with
        queue := sim.queue.schedule (target.runningTime work.length) .gateway
          (.taskFinished task node) }
    | _, _ => sim
  | _ => sim

def deliver (sim : Simulation α) (policy : Policy m α) (target : Target) (message : Message) :
    m (Except Fault Unit × Simulation α) :=
  match target with
  | .gateway => sim.handle policy message
  | .datacenter _ => return (.ok (), sim.runOnDatacenter message)

/-- The next event, taken off the queue; none if the episode is over. -/
def next? (sim : Simulation α) (ending : EndCondition α) : Option (Event α × Simulation α) :=
  (sim.queue.pop? ending).map fun (event, queue) => (event, { sim with queue := queue })

/-- The state after the last event: a time limit is simulated up to the limit. -/
def closeClock (sim : Simulation α) (ending : EndCondition α) : Simulation α :=
  match ending with
  | .drained => sim
  | .limit limit => { sim with queue := sim.queue.advanceTo limit }

/-- Delivers events until the episode is over, at most `allotted` of them. -/
def runEvents (policy : Policy m α) (ending : EndCondition α) :
    Nat → Simulation α → m (Except Fault Unit × Simulation α)
  | 0, sim => return (.error .unfinished, sim)
  | allotted + 1, sim =>
    match sim.next? ending with
    | none => return (.ok (), sim.closeClock ending)
    | some (event, popped) => do
      match ← popped.deliver policy event.target event.message with
      | (.error fault, after) => return (.error fault, after)
      | (.ok (), after) => runEvents policy ending allotted after

end Simulation

namespace Episode

variable {α : Type} [Arith α] {m : Type → Type} [Monad m]

/-- A queue with the arrivals of all tasks, in the order of the list. -/
def arrivals (tasks : List (Task α)) : EventQueue α :=
  tasks.foldl (fun queue task => queue.push task.arrival .gateway (.taskArrival task.id))
    EventQueue.empty

def initial (gateway : Gateway α) (context : Context α) : Simulation α :=
  ⟨gateway, context, arrivals context.tasks⟩

/-- An episode over the tasks of the context, of at most `allotted` events.  Its result is the final
clock. -/
def run (allotted : Nat) (policy : Policy m α) (ending : EndCondition α) (gateway : Gateway α)
    (context : Context α) : m (Except Fault (Time α) × Simulation α) := do
  match ← (initial gateway context).runEvents policy ending allotted with
  | (.ok (), final) => return (.ok final.queue.now, final)
  | (.error fault, final) => return (.error fault, final)

end Episode
end FogDispatch
