import FogDispatch.Proofs.Queue

/-!
# The clock of a queue

A queue is asked for all that it offers, in any order: to push messages, to pop
the next event, and to move its clock on without delivering anything.  A push is
due no earlier than the clock and moving on never takes it back, but the clock
may be moved past an event that waits.  When that event is popped at last, the
clock is set to its time and runs backwards.  Nothing else takes it back, so it
runs forwards as long as nobody moves on past an event.
-/

namespace FogDispatch

namespace EventQueue

variable {α : Type} [Arith α]

/-- What a queue offers. -/
inductive Operation (α : Type) where
  | push (time : Time α) (target : Target) (message : Message)
  | schedule (delay : Span α) (target : Target) (message : Message)
  | pop (ending : EndCondition α)
  | advance (time : Time α)

def perform (queue : EventQueue α) : Operation α → EventQueue α
  | .push time target message => queue.push time target message
  | .schedule delay target message => queue.schedule delay target message
  | .pop ending =>
    match queue.pop? ending with
    | none => queue
    | some (_, popped) => popped
  | .advance time => queue.advanceTo time

theorem perform_pop {queue popped : EventQueue α} {ending : EndCondition α}
    {event : Event α} (hpop : queue.pop? ending = some (event, popped)) :
    queue.perform (.pop ending) = popped := by
  simp only [perform, hpop]

theorem perform_pop_of_none {queue : EventQueue α} {ending : EndCondition α}
    (hpop : queue.pop? ending = none) :
    queue.perform (.pop ending) = queue := by
  simp only [perform, hpop]

/-- A queue that was empty before the first operation. -/
def performed (operations : List (Operation α)) : EventQueue α :=
  operations.foldl perform .empty

theorem performed_concat (operations : List (Operation α))
    (operation : Operation α) :
    performed (operations ++ [operation]) =
      (performed operations).perform operation :=
  List.foldl_concat ..

/-- The clock was moved past an event that was waiting. -/
def PassedOver (operations : List (Operation α)) (event : Event α) : Prop :=
  ∃ earlier time later, operations = earlier ++ .advance time :: later ∧
    event ∈ (performed earlier).future ∧ event.time.isBefore time = true

theorem PassedOver.concat {operations : List (Operation α)} {event : Event α}
    (hpassed : PassedOver operations event) (operation : Operation α) :
    PassedOver (operations ++ [operation]) event := by
  obtain ⟨earlier, time, later, rfl, hwaiting, hbefore⟩ := hpassed
  exact ⟨earlier, time, later ++ [operation], by simp, hwaiting, hbefore⟩

/-- The events stand in the order of their times, and those that are due before
the clock are known. -/
structure Trails (Known : Event α → Prop) (queue : EventQueue α) : Prop where
  sorted : queue.future.Pairwise fun a b => a.time.isBy b.time = true
  ahead : ∀ event ∈ queue.future,
    queue.now.isBy event.time = true ∨ Known event

theorem Trails.mono {Known Known' : Event α → Prop} {queue : EventQueue α}
    (htrails : queue.Trails Known)
    (hknown : ∀ event, Known event → Known' event) : queue.Trails Known' :=
  ⟨htrails.sorted, fun event hevent =>
    (htrails.ahead event hevent).imp_right (hknown event)⟩

theorem Trails.pop {Known : Event α → Prop} {queue : EventQueue α}
    (htrails : queue.Trails Known) (ending : EndCondition α) :
    (queue.perform (.pop ending)).Trails Known := by
  cases hpop : queue.pop? ending with
  | none =>
      rw [perform_pop_of_none hpop]
      exact htrails
  | some pair =>
      obtain ⟨event, popped⟩ := pair
      obtain ⟨hfuture, hnow, _⟩ := pop?_eq_some hpop
      have hsorted := htrails.sorted
      rw [hfuture] at hsorted
      obtain ⟨hfirst, hrest⟩ := List.pairwise_cons.mp hsorted
      rw [perform_pop hpop]
      exact ⟨hrest, fun other hother => .inl (hnow ▸ hfirst other hother)⟩

section

variable [Std.TransCmp (Arith.order : α → α → Ordering)]

namespace Trails

variable {Known : Event α → Prop} {queue : EventQueue α}

theorem push (htrails : queue.Trails Known) (time : Time α) (target : Target)
    (message : Message) : (queue.push time target message).Trails Known := by
  refine ⟨place_sorted _ htrails.sorted, ?_⟩
  intro event hevent
  rcases mem_place.mp hevent with rfl | hwaiting
  · exact .inl (queue.isBy_delivery time)
  · exact htrails.ahead event hwaiting

/-- Whatever the clock is moved past is due before it from then on. -/
theorem advance (htrails : queue.Trails Known) (time : Time α)
    (hpassed : ∀ event ∈ queue.future,
      event.time.isBefore time = true → Known event) :
    (queue.advanceTo time).Trails Known := by
  refine ⟨htrails.sorted, ?_⟩
  intro event hevent
  change (queue.now.later time).isBy event.time = true ∨ Known event
  unfold Time.later
  split
  next =>
    cases hbefore : event.time.isBefore time with
    | true => exact .inr (hpassed event hevent hbefore)
    | false => exact .inl (Time.isBy_of_not_isBefore hbefore)
  next => exact htrails.ahead event hevent

end Trails

/-- What waits before the clock was passed over. -/
theorem performed_trails (operations : List (Operation α)) :
    (performed operations).Trails (PassedOver operations) := by
  induction operations using List.reverseRecOn with
  | nil => constructor <;> simp [performed, empty]
  | append_singleton operations operation ih =>
      rw [performed_concat]
      have hkept := ih.mono fun event hpassed => hpassed.concat operation
      cases operation with
      | push time target message => exact hkept.push time target message
      | schedule delay target message => exact hkept.push _ target message
      | pop ending => exact hkept.pop ending
      | advance time =>
          exact hkept.advance time fun event hwaiting hbefore =>
            ⟨operations, time, [], rfl, hwaiting, hbefore⟩

/-- Only a pop can take the clock back, to the event that it returns. -/
theorem perform_isBefore_iff (queue : EventQueue α) (operation : Operation α) :
    (queue.perform operation).now.isBefore queue.now = true ↔
      ∃ ending event popped, operation = .pop ending ∧
        queue.pop? ending = some (event, popped) ∧
        event.time.isBefore queue.now = true := by
  constructor
  · intro hback
    have hforward : ∀ time : Time α, queue.now.isBy time = true →
        time.isBefore queue.now ≠ true := by
      intro time hby
      simp [Time.isBefore_eq_not_isBy, hby]
    cases operation with
    | push time target message =>
        exact absurd hback (hforward _ (Time.isBy_refl _))
    | schedule delay target message =>
        exact absurd hback (hforward _ (Time.isBy_refl _))
    | advance time => exact absurd hback (hforward _ (Time.isBy_later _ _))
    | pop ending =>
        cases hpop : queue.pop? ending with
        | none =>
            rw [perform_pop_of_none hpop] at hback
            exact absurd hback (hforward _ (Time.isBy_refl _))
        | some pair =>
            obtain ⟨event, popped⟩ := pair
            rw [perform_pop hpop, (pop?_eq_some hpop).2.1] at hback
            exact ⟨ending, event, popped, rfl, hpop, hback⟩
  · rintro ⟨ending, event, popped, rfl, hpop, hbefore⟩
    rwa [perform_pop hpop, (pop?_eq_some hpop).2.1]

/-- The clock runs backwards exactly when a pop returns an event that is due
before it, and over such an event the clock was moved at some point.  Where it
is moved past no event that waits, it never runs backwards. -/
theorem clock_back_iff (operations : List (Operation α))
    (operation : Operation α) :
    let queue := performed operations
    let next := performed (operations ++ [operation])
    (next.now.isBefore queue.now = true ↔
      ∃ ending event popped, operation = .pop ending ∧
        queue.pop? ending = some (event, popped) ∧
        event.time.isBefore queue.now = true ∧
        PassedOver operations event) ∧
    ((∀ event, ¬ PassedOver operations event) →
      queue.now.isBy next.now = true) := by
  intro queue next
  have hback : next.now.isBefore queue.now = true ↔
      ∃ ending event popped, operation = .pop ending ∧
        queue.pop? ending = some (event, popped) ∧
        event.time.isBefore queue.now = true ∧
        PassedOver operations event := by
    have hnext : next = queue.perform operation :=
      performed_concat operations operation
    rw [hnext, perform_isBefore_iff]
    constructor
    · rintro ⟨ending, event, popped, hpops, hpop, hbefore⟩
      have hwaiting : event ∈ queue.future := by
        rw [(pop?_eq_some hpop).1]
        exact List.mem_cons_self
      refine ⟨ending, event, popped, hpops, hpop, hbefore, ?_⟩
      refine ((performed_trails operations).ahead event
        hwaiting).resolve_left ?_
      intro hby
      rw [Time.isBefore_eq_not_isBy, hby] at hbefore
      cases hbefore
    · rintro ⟨ending, event, popped, hpops, hpop, hbefore, _⟩
      exact ⟨ending, event, popped, hpops, hpop, hbefore⟩
  refine ⟨hback, ?_⟩
  intro hnone
  apply Time.isBy_of_not_isBefore
  rw [Bool.eq_false_iff, Ne, hback]
  rintro ⟨_, event, _, _, _, _, hpassed⟩
  exact hnone event hpassed

end

/-- A message that is due at five, and a clock that is moved on to ten. -/
def skipping : List (Operation Binary64) :=
  [.push ⟨Arith.ofNat 5⟩ .gateway .gatewayWake, .advance ⟨Arith.ofNat 10⟩]

/-- The next pop takes the clock back from ten to five. -/
theorem skipping_clock :
    (performed skipping).now = ⟨Arith.ofNat 10⟩ ∧
      (performed (skipping ++ [.pop .drained])).now = ⟨Arith.ofNat 5⟩ ∧
      (performed (skipping ++ [.pop .drained])).now.isBefore
        (performed skipping).now = true := by
  decide +kernel

/-- The event that takes it back is the one that was passed over. -/
theorem skipping_passed_over :
    PassedOver skipping ⟨⟨Arith.ofNat 5⟩, 0, .gateway, .gatewayWake⟩ := by
  have hback : (performed (skipping ++ [.pop .drained])).now.isBefore
      (performed skipping).now = true := by
    decide +kernel
  obtain ⟨ending, event, popped, hpops, hpop, _, hpassed⟩ :=
    (clock_back_iff skipping (.pop .drained)).1.mp hback
  obtain rfl : EndCondition.drained = ending := by simpa using hpops
  have hfirst : ((performed skipping).pop? .drained).map Prod.fst =
      some ⟨⟨Arith.ofNat 5⟩, 0, .gateway, .gatewayWake⟩ := by
    decide +kernel
  rw [hpop, Option.map_some, Option.some.injEq] at hfirst
  exact hfirst ▸ hpassed

end EventQueue
end FogDispatch
