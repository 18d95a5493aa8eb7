import FogDispatch.Event
import FogDispatch.Proofs.Clock

/-!
# The event queue

Scheduling adds one message to the messages to come and taking the next event
removes the one in front.  The events stand in the order of their times and
none is due before the clock, so the clock never runs backwards while events
are delivered.
-/

namespace FogDispatch

namespace EventQueue

variable {α : Type} [Arith α]

def messages (queue : EventQueue α) : List Message :=
  queue.future.map Event.message

theorem place_perm (event : Event α) (events : List (Event α)) :
    (place event events).Perm (event :: events) := by
  induction events with
  | nil => exact List.Perm.refl _
  | cons head rest ih =>
      unfold place
      split
      next => exact List.Perm.refl _
      next => exact (ih.cons head).trans (List.Perm.swap event head rest)

@[simp] theorem mem_place {event other : Event α} {events : List (Event α)} :
    other ∈ place event events ↔ other = event ∨ other ∈ events := by
  rw [(place_perm event events).mem_iff, List.mem_cons]

@[simp] theorem push_now (queue : EventQueue α) (time : Time α)
    (target : Target) (message : Message) :
    (queue.push time target message).now = queue.now := rfl

theorem push_messages_perm (queue : EventQueue α) (time : Time α)
    (target : Target) (message : Message) :
    (queue.push time target message).messages.Perm
      (message :: queue.messages) :=
  (place_perm _ queue.future).map Event.message

@[simp] theorem count_push (queue : EventQueue α) (time : Time α)
    (target : Target) (message other : Message) :
    (queue.push time target message).messages.count other =
      queue.messages.count other + if message = other then 1 else 0 := by
  rw [(push_messages_perm queue time target message).count_eq,
    List.count_cons]
  simp

@[simp] theorem count_schedule (queue : EventQueue α) (delay : Span α)
    (target : Target) (message other : Message) :
    (queue.schedule delay target message).messages.count other =
      queue.messages.count other + if message = other then 1 else 0 :=
  count_push queue _ target message other

theorem mem_messages_schedule {queue : EventQueue α} {delay : Span α}
    {target : Target} {message other : Message} :
    other ∈ (queue.schedule delay target message).messages ↔
      other = message ∨ other ∈ queue.messages := by
  rw [schedule, (queue.push_messages_perm _ target message).mem_iff,
    List.mem_cons]

theorem pop?_eq_some {queue popped : EventQueue α}
    {ending : EndCondition α} {event : Event α}
    (hpop : queue.pop? ending = some (event, popped)) :
    queue.future = event :: popped.future ∧
      popped.now = event.time ∧ popped.processed = queue.processed + 1 := by
  unfold pop? at hpop
  cases hfuture : queue.future with
  | nil => simp [hfuture] at hpop
  | cons head rest =>
      simp only [hfuture] at hpop
      split at hpop
      next =>
        simp only [Option.some.injEq, Prod.mk.injEq] at hpop
        obtain ⟨rfl, rfl⟩ := hpop
        exact ⟨rfl, rfl, rfl⟩
      next => contradiction

theorem pop?_serial {queue popped : EventQueue α} {ending : EndCondition α}
    {event : Event α} (hpop : queue.pop? ending = some (event, popped)) :
    popped.serial = queue.serial := by
  unfold pop? at hpop
  split at hpop
  next => cases hpop
  next =>
    split at hpop
    next =>
      cases hpop
      rfl
    next => cases hpop

theorem pop?_messages {queue popped : EventQueue α}
    {ending : EndCondition α} {event : Event α}
    (hpop : queue.pop? ending = some (event, popped)) :
    queue.messages = event.message :: popped.messages := by
  simp only [messages, (pop?_eq_some hpop).1, List.map_cons]

theorem pop?_eq_none {queue : EventQueue α} {ending : EndCondition α} :
    queue.pop? ending = none ↔
      ∀ event ∈ queue.future.head?, admits ending event.time = false := by
  unfold pop?
  cases queue.future with
  | nil => simp
  | cons event rest => cases hadmits : admits ending event.time <;> simp [hadmits]

/-- Without a limit only an empty queue has no next event. -/
theorem pop?_drained_eq_none {queue : EventQueue α}
    (hpop : queue.pop? .drained = none) : queue.future = [] := by
  rw [pop?_eq_none] at hpop
  cases hfuture : queue.future with
  | nil => rfl
  | cons head rest => simp [hfuture, admits] at hpop

/-! ## The order of delivery -/

/-- The events stand in the order of their times, the first one due no earlier
than now. -/
structure Ordered (queue : EventQueue α) : Prop where
  sorted : queue.future.Pairwise fun a b => a.time.isBy b.time = true
  ahead : ∀ event ∈ queue.future, queue.now.isBy event.time = true

theorem empty_ordered : (EventQueue.empty : EventQueue α).Ordered := by
  constructor <;> simp [EventQueue.empty]

theorem Ordered.pop {queue popped : EventQueue α} (hqueue : queue.Ordered)
    {ending : EndCondition α} {event : Event α}
    (hpop : queue.pop? ending = some (event, popped)) :
    popped.Ordered ∧ queue.now.isBy popped.now = true := by
  obtain ⟨hfuture, hnow, _⟩ := pop?_eq_some hpop
  have hsorted := hqueue.sorted
  rw [hfuture] at hsorted
  obtain ⟨hhead, hrest⟩ := List.pairwise_cons.mp hsorted
  refine ⟨⟨hrest, ?_⟩, ?_⟩
  · intro other hother
    rw [hnow]
    exact hhead other hother
  · rw [hnow]
    apply hqueue.ahead
    rw [hfuture]
    exact List.mem_cons_self

variable [Std.TransCmp (Arith.order : α → α → Ordering)]

theorem place_sorted (event : Event α) {events : List (Event α)}
    (hsorted : events.Pairwise fun a b => a.time.isBy b.time = true) :
    (place event events).Pairwise fun a b => a.time.isBy b.time = true := by
  induction events with
  | nil => simp [place]
  | cons head rest ih =>
      obtain ⟨hhead, hrest⟩ := List.pairwise_cons.mp hsorted
      unfold place
      split
      next hbefore =>
        have hby : event.time.isBy head.time = true :=
          Time.isBy_of_isBefore hbefore
        refine List.pairwise_cons.mpr ⟨?_, hsorted⟩
        intro other hother
        rcases List.mem_cons.mp hother with rfl | hmem
        · exact hby
        · exact Time.isBy_trans hby (hhead other hmem)
      next hnot =>
        have hby : head.time.isBy event.time = true :=
          Time.isBy_of_not_isBefore (by simpa using hnot)
        refine List.pairwise_cons.mpr ⟨?_, ih hrest⟩
        intro other hother
        rcases mem_place.mp hother with rfl | hmem
        · exact hby
        · exact hhead other hmem

theorem isBy_delivery (queue : EventQueue α) (time : Time α) :
    queue.now.isBy (queue.delivery time) = true := by
  unfold delivery
  split
  next => exact Time.isBy_refl _
  next hnot => exact Time.isBy_of_not_isBefore (by simpa using hnot)

theorem Ordered.push {queue : EventQueue α} (hqueue : queue.Ordered)
    (time : Time α) (target : Target) (message : Message) :
    (queue.push time target message).Ordered := by
  constructor
  · exact place_sorted _ hqueue.sorted
  · intro event hevent
    rcases mem_place.mp hevent with rfl | hmem
    · exact queue.isBy_delivery time
    · exact hqueue.ahead event hmem

theorem Ordered.schedule {queue : EventQueue α} (hqueue : queue.Ordered)
    (delay : Span α) (target : Target) (message : Message) :
    (queue.schedule delay target message).Ordered :=
  hqueue.push _ target message

end EventQueue
end FogDispatch
