import FogDispatch.Proofs.Queue

/-!
# What is due by a limit

A queue that delivers up to a limit never looks at the events beyond it.  So two
ordered queues with the same due events deliver alike, whatever they hold
beyond the limit, and scheduling the same message in both keeps this up.
-/

namespace FogDispatch

variable {α : Type} [Arith α]

/-- The task that a message is about, if any. -/
def Message.task? : Message → Option TaskId
  | taskArrival task => some task
  | taskSubmit task _ => some task
  | taskFinished task _ => some task
  | gatewayWake => none
  | decisionDue => none

def Event.isDue (limit : Time α) (event : Event α) : Bool :=
  event.time.isBy limit

namespace EventQueue

variable {limit : Time α} {known : TaskId → Prop}
  {queue queue' : EventQueue α}

/-- The events that are due by a limit. -/
def due (queue : EventQueue α) (limit : Time α) : List (Event α) :=
  queue.future.filter (Event.isDue limit)

theorem filter_place_of_late {event : Event α}
    (hlate : event.isDue limit = false) (events : List (Event α)) :
    (place event events).filter (Event.isDue limit) =
      events.filter (Event.isDue limit) := by
  induction events with
  | nil => simp [place, hlate]
  | cons head rest ih =>
      unfold place
      split
      next => rw [List.filter_cons_of_neg (by simp [hlate])]
      next => rw [List.filter_cons, List.filter_cons, ih]

theorem pop?_of_due_nil (hdue : queue.due limit = []) :
    queue.pop? (.limit limit) = none := by
  rw [pop?_eq_none]
  intro event hevent
  rw [due, List.filter_eq_nil_iff] at hdue
  exact Bool.eq_false_of_not_eq_true (hdue event (List.mem_of_mem_head? hevent))

variable [Std.TransCmp (Arith.order : α → α → Ordering)]

theorem pop?_of_due_cons (hordered : queue.Ordered) {event : Event α}
    {rest : List (Event α)} (hdue : queue.due limit = event :: rest) :
    ∃ popped, queue.pop? (.limit limit) = some (event, popped) ∧
      popped.due limit = rest ∧ popped.serial = queue.serial := by
  have hevent : event ∈ queue.due limit := by
    rw [hdue]
    exact List.mem_cons_self
  obtain ⟨hmem, hby⟩ := List.mem_filter.mp hevent
  unfold pop?
  cases hfuture : queue.future with
  | nil =>
      rw [hfuture] at hmem
      exact nomatch hmem
  | cons head tail =>
      have hsorted := hordered.sorted
      rw [hfuture] at hsorted hmem
      have hfirst : head.isDue limit = true := by
        rcases List.mem_cons.mp hmem with rfl | htail
        · exact hby
        · have hhead := (List.pairwise_cons.mp hsorted).1 event htail
          exact Time.isBy_trans hhead hby
      rw [due, hfuture, List.filter_cons_of_pos hfirst] at hdue
      obtain ⟨rfl, htail⟩ := List.cons.inj hdue
      exact ⟨_, if_pos hfirst, htail, rfl⟩

theorem filter_place_of_due {event : Event α}
    (hdue : event.isDue limit = true) {events : List (Event α)}
    (hsorted : events.Pairwise fun a b => a.time.isBy b.time = true) :
    (place event events).filter (Event.isDue limit) =
      place event (events.filter (Event.isDue limit)) := by
  induction events with
  | nil => simp [place, hdue]
  | cons head rest ih =>
      obtain ⟨hhead, hrest⟩ := List.pairwise_cons.mp hsorted
      by_cases hfirst : head.isDue limit = true
      · rw [List.filter_cons_of_pos hfirst, place, place]
        split
        next =>
          rw [List.filter_cons_of_pos hdue, List.filter_cons_of_pos hfirst]
        next => rw [List.filter_cons_of_pos hfirst, ih hrest]
      · -- nothing is due from the first late event on
        have hnone : rest.filter (Event.isDue limit) = [] := by
          rw [List.filter_eq_nil_iff]
          intro other hother hby
          exact hfirst (Time.isBy_trans (hhead other hother) hby)
        rw [List.filter_cons_of_neg hfirst, hnone]
        unfold place
        split
        next =>
          rw [List.filter_cons_of_pos hdue, List.filter_cons_of_neg hfirst,
            hnone]
        next =>
          rw [List.filter_cons_of_neg hfirst, ih hrest, hnone]
          rfl

/-- An event asked for a time beyond the limit is not due by it. -/
theorem delivery_late {time : Time α} (hlate : time.isBy limit = false) :
    (queue.delivery time).isBy limit = false := by
  unfold delivery
  split
  next hbefore =>
    rw [Bool.eq_false_iff] at hlate ⊢
    intro hby
    exact hlate (Time.isBy_trans (Time.isBy_of_isBefore hbefore) hby)
  next => exact hlate

theorem due_push_late {time : Time α} (hlate : time.isBy limit = false)
    (target : Target) (message : Message) :
    (queue.push time target message).due limit = queue.due limit := by
  have hevent : Event.isDue limit
      ⟨queue.delivery time, queue.serial, target, message⟩ = false :=
    delivery_late hlate
  exact filter_place_of_late hevent queue.future

/-- Two ordered queues that agree on what is due by the limit, all of which
concerns known tasks. -/
structure Alike (limit : Time α) (known : TaskId → Prop)
    (queue queue' : EventQueue α) : Prop where
  ordered : queue.Ordered
  ordered' : queue'.Ordered
  now : queue'.now = queue.now
  serial : queue'.serial = queue.serial
  due : queue'.due limit = queue.due limit
  known : ∀ event ∈ queue.due limit, ∀ id,
    event.message.task? = some id → known id

namespace Alike

theorem push (halike : queue.Alike limit known queue') (time : Time α)
    (target : Target) {message : Message}
    (hmessage : ∀ id, message.task? = some id → known id) :
    (queue.push time target message).Alike limit known
      (queue'.push time target message) := by
  have hevent : (⟨queue'.delivery time, queue'.serial, target, message⟩ :
      Event α) = ⟨queue.delivery time, queue.serial, target, message⟩ := by
    rw [delivery, delivery, halike.now, halike.serial]
  refine ⟨halike.ordered.push time target message,
    halike.ordered'.push time target message, halike.now,
    congrArg (· + 1) halike.serial, ?_, ?_⟩
  · by_cases hdue : Event.isDue limit
        ⟨queue.delivery time, queue.serial, target, message⟩ = true
    · have hplaced := filter_place_of_due hdue halike.ordered.sorted
      have hplaced' := filter_place_of_due hdue halike.ordered'.sorted
      rw [EventQueue.due, EventQueue.due, EventQueue.push, EventQueue.push,
        hevent]
      dsimp only
      rw [hplaced, hplaced']
      exact congrArg _ halike.due
    · have hlate := filter_place_of_late (Bool.eq_false_iff.mpr hdue)
      rw [EventQueue.due, EventQueue.due, EventQueue.push, EventQueue.push,
        hevent]
      dsimp only
      rw [hlate, hlate]
      exact halike.due
  · intro event hmem
    obtain ⟨hplaced, hdue⟩ := List.mem_filter.mp hmem
    rcases mem_place.mp hplaced with rfl | hfuture
    · exact hmessage
    · exact halike.known event (List.mem_filter.mpr ⟨hfuture, hdue⟩)

theorem schedule (halike : queue.Alike limit known queue')
    (delay : Span α) (target : Target) {message : Message}
    (hmessage : ∀ id, message.task? = some id → known id) :
    (queue.schedule delay target message).Alike limit known
      (queue'.schedule delay target message) := by
  have hpushed := halike.push (queue.now + delay) target hmessage
  rw [EventQueue.schedule, EventQueue.schedule, halike.now]
  exact hpushed

theorem push_late (halike : queue.Alike limit known queue')
    {time time' : Time α} (htime : time.isBy limit = false)
    (htime' : time'.isBy limit = false) (target target' : Target)
    (message message' : Message) :
    (queue.push time target message).Alike limit known
      (queue'.push time' target' message') := by
  refine ⟨halike.ordered.push time target message,
    halike.ordered'.push time' target' message', halike.now,
    congrArg (· + 1) halike.serial, ?_, ?_⟩
  · rw [due_push_late htime, due_push_late htime']
    exact halike.due
  · rw [due_push_late htime]
    exact halike.known

theorem pop (halike : queue.Alike limit known queue') :
    (queue.pop? (.limit limit) = none ∧
      queue'.pop? (.limit limit) = none) ∨
    ∃ event popped popped',
      queue.pop? (.limit limit) = some (event, popped) ∧
      queue'.pop? (.limit limit) = some (event, popped') ∧
      popped.Alike limit known popped' ∧
      ∀ id, event.message.task? = some id → known id := by
  have hsame := halike.due
  cases hdue : queue.due limit with
  | nil =>
      rw [hdue] at hsame
      exact Or.inl ⟨pop?_of_due_nil hdue, pop?_of_due_nil hsame⟩
  | cons event rest =>
      rw [hdue] at hsame
      obtain ⟨popped, hpop, hrest, hserial⟩ :=
        pop?_of_due_cons halike.ordered hdue
      obtain ⟨popped', hpop', hrest', hserial'⟩ :=
        pop?_of_due_cons halike.ordered' hsame
      have hknown := halike.known
      rw [hdue] at hknown
      obtain ⟨hevent, hlater⟩ := List.forall_mem_cons.mp hknown
      refine Or.inr ⟨event, popped, popped', hpop, hpop', ?_, hevent⟩
      constructor
      case ordered => exact (halike.ordered.pop hpop).1
      case ordered' => exact (halike.ordered'.pop hpop').1
      case now => rw [(pop?_eq_some hpop).2.1, (pop?_eq_some hpop').2.1]
      case serial => rw [hserial, hserial', halike.serial]
      case due => rw [hrest, hrest']
      case known =>
        rw [hrest]
        exact hlater

end Alike
end EventQueue

end FogDispatch
