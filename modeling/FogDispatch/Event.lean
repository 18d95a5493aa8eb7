import FogDispatch.Plan

/-!
# Events and their queue

Events are delivered by time and, at one time, in the order in which they were scheduled.  The queue
keeps its events in the order of delivery.  Nothing is scheduled before the clock: an event asked
for the past is delivered at the present.
-/

namespace FogDispatch

/-- What an event says. -/
inductive Message where
  /-- A task shows up at the gateway. -/
  | taskArrival (task : TaskId)
  /-- The time of a decision has passed. -/
  | gatewayWake
  /-- Capacity was freed, so the pending tasks should be looked at again. -/
  | decisionDue
  /-- A placed task reaches the datacenter of its node. -/
  | taskSubmit (task : TaskId) (node : NodeId)
  /-- A node is done with its task. -/
  | taskFinished (task : TaskId) (node : NodeId)
  deriving DecidableEq, Repr

namespace Message
def text : Message → String
  | taskArrival task => "TaskArrival(" ++ task.text ++ ")"
  | gatewayWake => "GatewayWake"
  | decisionDue => "DecisionDue"
  | taskSubmit task node => "TaskSubmit(" ++ task.text ++ " -> " ++ node.text ++ ")"
  | taskFinished task node => "TaskFinished(" ++ task.text ++ " @ " ++ node.text ++ ")"
end Message

/-- To whom an event is delivered. -/
inductive Target where
  | gateway
  | datacenter (id : DatacenterId)
  deriving DecidableEq, Repr

namespace Target
def text : Target → String
  | gateway => "gateway"
  | datacenter id => id.text
end Target

/-- A message that is due at a time.  The serial number tells the order of scheduling. -/
structure Event (α : Type) where
  time : Time α
  serial : Nat
  target : Target
  message : Message
  deriving DecidableEq, Repr

namespace Event
def text (event : Event Binary64) : String :=
  "@" ++ event.time.text ++ s!" #{event.serial} -> " ++ event.target.text ++ " " ++
    event.message.text
end Event

/-- The clock of an episode and the events that are still to come. -/
structure EventQueue (α : Type) where
  now : Time α
  /-- The serial number of the next event. -/
  serial : Nat
  /-- The events to come in the order of delivery. -/
  future : List (Event α)
  /-- The number of delivered events. -/
  processed : Nat
  deriving DecidableEq, Repr

namespace EventQueue

variable {α : Type} [Arith α]

def empty : EventQueue α := ⟨Time.zero, 0, [], 0⟩

/-- Puts an event behind all events that are due no later. -/
def place (event : Event α) : List (Event α) → List (Event α)
  | [] => [event]
  | head :: rest =>
    if event.time.isBefore head.time then event :: head :: rest
    else head :: place event rest

/-- The time at which a message asked for `time` is delivered. -/
def delivery (queue : EventQueue α) (time : Time α) : Time α :=
  if time.isBefore queue.now then queue.now else time

def push (queue : EventQueue α) (time : Time α) (target : Target) (message : Message) :
    EventQueue α :=
  { queue with
    serial := queue.serial + 1
    future := place ⟨queue.delivery time, queue.serial, target, message⟩ queue.future }

def schedule (queue : EventQueue α) (delay : Span α) (target : Target) (message : Message) :
    EventQueue α :=
  queue.push (queue.now + delay) target message

/-- Whether an end condition still lets an event at `time` happen. -/
def admits (ending : EndCondition α) (time : Time α) : Bool :=
  match ending with
  | .drained => true
  | .limit limit => !time.isAfter limit

/-- The next event, with the clock moved to it; none if nothing is left or the next event lies
beyond the end. -/
def pop? (queue : EventQueue α) (ending : EndCondition α) : Option (Event α × EventQueue α) :=
  match queue.future with
  | [] => none
  | event :: rest =>
    if admits ending event.time then
      some (event,
        { queue with now := event.time, future := rest, processed := queue.processed + 1 })
    else none

/-- Moves the clock forward without delivering anything. -/
def advanceTo (queue : EventQueue α) (time : Time α) : EventQueue α :=
  { queue with now := queue.now.later time }

def size (queue : EventQueue α) : Nat := queue.future.length

def isEmpty (queue : EventQueue α) : Bool := queue.future.isEmpty

end EventQueue
end FogDispatch
