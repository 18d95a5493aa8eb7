import FogDispatch.Proofs.Queue

/-!
# The order of delivery

A queue is asked to push messages, at points in time or after spans, and to pop
the next event, in any order.  Whatever the times are, each event that is popped
is the first one of those that were pushed and not popped yet, by its time and
among equal times by the order of the pushes.  No event is lost or popped twice,
and the times of the popped events never decrease, because no event is due before
the clock of its push.
-/

namespace FogDispatch

namespace Event

variable {α : Type} [Arith α]

/-- An event comes before another one of a later time and, at equal times, before
the ones that were pushed after it. -/
def Precedes (a b : Event α) : Prop :=
  a.time.isBefore b.time = true ∨ a.time.order b.time = .eq ∧ a.serial < b.serial

theorem Precedes.isBy {a b : Event α} (hab : a.Precedes b) :
    a.time.isBy b.time = true := by
  rcases hab with hbefore | ⟨hequal, _⟩
  · exact Time.isBy_of_isBefore hbefore
  · simp [Time.isBy, hequal]

theorem precedes_of_isBy {a b : Event α} (hby : a.time.isBy b.time = true)
    (hserial : a.serial < b.serial) : a.Precedes b := by
  unfold Precedes Time.isBefore
  unfold Time.isBy at hby
  cases horder : a.time.order b.time <;> simp_all

theorem Precedes.asymm [Std.TransCmp (Arith.order : α → α → Ordering)]
    {a b : Event α} (hab : a.Precedes b) : ¬ b.Precedes a := by
  intro hba
  have hby := hab.isBy
  have hback := hba.isBy
  rcases hab with hbefore | ⟨_, hab⟩
  · simp [Time.isBefore_eq_not_isBy, hback] at hbefore
  · rcases hba with hbefore | ⟨_, hba⟩
    · simp [Time.isBefore_eq_not_isBy, hby] at hbefore
    · omega

end Event

namespace EventQueue

variable {α : Type} [Arith α]

theorem place_precedes [Std.TransCmp (Arith.order : α → α → Ordering)]
    {event : Event α} {events : List (Event α)}
    (hsorted : events.Pairwise Event.Precedes)
    (hserial : ∀ other ∈ events, other.serial < event.serial) :
    (place event events).Pairwise Event.Precedes := by
  induction events with
  | nil => simp [place]
  | cons head rest ih =>
      obtain ⟨hhead, hrest⟩ := List.pairwise_cons.mp hsorted
      unfold place
      split
      next hbefore =>
        refine List.pairwise_cons.mpr ⟨?_, hsorted⟩
        intro other hother
        rcases List.mem_cons.mp hother with rfl | hmem
        · exact .inl hbefore
        · exact .inl
            (Time.isBefore_of_isBefore_of_isBy hbefore (hhead other hmem).isBy)
      next hnot =>
        have hby : head.time.isBy event.time = true :=
          Time.isBy_of_not_isBefore (by simpa using hnot)
        refine List.pairwise_cons.mpr ⟨?_, ih hrest fun other hother =>
          hserial other (List.mem_cons_of_mem head hother)⟩
        intro other hother
        rcases mem_place.mp hother with rfl | hmem
        · exact Event.precedes_of_isBy hby (hserial head List.mem_cons_self)
        · exact hhead other hmem

/-! ## Histories of a queue -/

/-- What a queue can be asked for. -/
inductive Call (α : Type) where
  | push (time : Time α) (target : Target) (message : Message)
  | schedule (delay : Span α) (target : Target) (message : Message)
  | pop (ending : EndCondition α)

/-- A message that was pushed, with the time asked for and the clock at the push. -/
structure Booking (α : Type) where
  requested : Time α
  clock : Time α
  target : Target
  message : Message

/-- A queue together with what was pushed and what was popped so far. -/
structure History (α : Type) where
  queue : EventQueue α
  bookings : List (Booking α)
  returned : List (Event α)

namespace Booking

/-- The time asked for unless it was in the past, and then the clock. -/
def due (booking : Booking α) : Time α :=
  if booking.requested.isBefore booking.clock then booking.clock
  else booking.requested

def event (serial : Nat) (booking : Booking α) : Event α :=
  ⟨booking.due, serial, booking.target, booking.message⟩

end Booking

namespace History

def fresh : History α := ⟨.empty, [], []⟩

/-- A pop that has no event leaves everything as it is. -/
def step (history : History α) : Call α → History α
  | .push time target message =>
    { history with
      queue := history.queue.push time target message
      bookings := history.bookings ++
        [⟨time, history.queue.now, target, message⟩] }
  | .schedule delay target message =>
    { history with
      queue := history.queue.schedule delay target message
      bookings := history.bookings ++
        [⟨history.queue.now + delay, history.queue.now, target, message⟩] }
  | .pop ending =>
    match history.queue.pop? ending with
    | none => history
    | some (event, queue) =>
      ⟨queue, history.bookings, history.returned ++ [event]⟩

/-- The history of a queue that was empty before the first call. -/
def after (calls : List (Call α)) : History α := calls.foldl step fresh

theorem after_concat (calls : List (Call α)) (call : Call α) :
    after (calls ++ [call]) = (after calls).step call :=
  List.foldl_concat ..

/-- The pushed events in the order of the pushes. -/
def events (history : History α) : List (Event α) :=
  history.bookings.mapIdx Booking.event

/-- An event was pushed and has not been popped yet. -/
def Waiting (history : History α) (event : Event α) : Prop :=
  event ∈ history.events ∧ event ∉ history.returned

theorem getElem?_bookings {history : History α} {event : Event α}
    (hevent : event ∈ history.events) :
    ∃ booking, history.bookings[event.serial]? = some booking ∧
      booking.event event.serial = event := by
  obtain ⟨serial, hserial, rfl⟩ := List.mem_mapIdx.mp hevent
  exact ⟨_, List.getElem?_eq_getElem hserial, rfl⟩

theorem serial_lt {history : History α} {event : Event α}
    (hevent : event ∈ history.events) :
    event.serial < history.bookings.length := by
  obtain ⟨booking, hbooking, _⟩ := getElem?_bookings hevent
  exact (List.getElem?_eq_some_iff.mp hbooking).1

theorem event_mem {history : History α} {serial : Nat} {booking : Booking α}
    (hbooking : history.bookings[serial]? = some booking) :
    booking.event serial ∈ history.events := by
  obtain ⟨hserial, rfl⟩ := List.getElem?_eq_some_iff.mp hbooking
  exact List.mem_mapIdx.mpr ⟨serial, hserial, rfl⟩

theorem eq_event {history : History α} {serial : Nat} {booking : Booking α}
    (hbooking : history.bookings[serial]? = some booking) {event : Event α}
    (hevent : event ∈ history.events) (hserial : event.serial = serial) :
    event = booking.event serial := by
  obtain ⟨other, hother, hsame⟩ := getElem?_bookings hevent
  rw [hserial, hbooking, Option.some.injEq] at hother
  rw [← hsame, hserial, hother]

theorem map_serial_events (history : History α) :
    history.events.map Event.serial = List.range history.bookings.length := by
  apply List.ext_getElem
  · simp [events]
  · intro index _ _
    simp [events, Booking.event]

theorem nodup_events (history : History α) : history.events.Nodup := by
  apply List.Nodup.of_map Event.serial
  rw [map_serial_events]
  exact List.nodup_range

/-- What every call preserves.  The queue is kept sorted by time and serial
number, and its serial numbers are the positions of the pushes. -/
structure Kept (history : History α) : Prop where
  ordered : history.queue.Ordered
  sorted : history.queue.future.Pairwise Event.Precedes
  accounted : (history.returned ++ history.queue.future).Perm history.events
  serial_eq : history.queue.serial = history.bookings.length
  processed_eq : history.queue.processed = history.returned.length
  now_eq : history.queue.now =
    (history.returned.getLast?.map Event.time).getD Time.zero
  past : ∀ event ∈ history.returned,
    event.time.isBy history.queue.now = true
  nondecreasing : history.returned.Pairwise fun a b =>
    a.time.isBy b.time = true

theorem fresh_kept : (fresh : History α).Kept := by
  constructor
  case ordered => exact empty_ordered
  all_goals simp [fresh, empty, events]

theorem Kept.waiting_iff {history : History α} (hkept : history.Kept)
    {event : Event α} :
    history.Waiting event ↔ event ∈ history.queue.future := by
  have hnodup := hkept.accounted.nodup_iff.mpr history.nodup_events
  have happart := (List.nodup_append.mp hnodup).2.2
  unfold Waiting
  rw [← hkept.accounted.mem_iff, List.mem_append]
  constructor
  · rintro ⟨hreturned | hfuture, hnot⟩
    · exact absurd hreturned hnot
    · exact hfuture
  · intro hfuture
    exact ⟨.inr hfuture, fun hreturned =>
      happart event hreturned event hfuture rfl⟩

theorem Kept.serial_lt {history : History α} (hkept : history.Kept)
    {event : Event α} (hevent : event ∈ history.queue.future) :
    event.serial < history.queue.serial := by
  rw [hkept.serial_eq]
  exact history.serial_lt (hkept.waiting_iff.mpr hevent).1

theorem Kept.mem_events {history : History α} (hkept : history.Kept)
    {event : Event α} (hevent : event ∈ history.returned) :
    event ∈ history.events :=
  hkept.accounted.mem_iff.mp (List.mem_append_left _ hevent)

theorem step_schedule (history : History α) (delay : Span α) (target : Target)
    (message : Message) :
    history.step (.schedule delay target message) =
      history.step (.push (history.queue.now + delay) target message) := rfl

theorem events_push (history : History α) (time : Time α) (target : Target)
    (message : Message) :
    (history.step (.push time target message)).events =
      history.events ++ [⟨history.queue.delivery time,
        history.bookings.length, target, message⟩] := by
  simp [step, events, Booking.event, Booking.due, delivery]

theorem Kept.timed {history : History α} (hkept : history.Kept)
    {event : Event α}
    (hevent : event ∈ history.returned ++ history.queue.future) :
    ∃ booking, history.bookings[event.serial]? = some booking ∧
      event.target = booking.target ∧ event.message = booking.message ∧
      event.time = booking.due := by
  obtain ⟨booking, hbooking, hsame⟩ :=
    history.getElem?_bookings (hkept.accounted.mem_iff.mp hevent)
  refine ⟨booking, hbooking, ?_⟩
  rw [← hsame]
  exact ⟨rfl, rfl, rfl⟩

theorem Kept.least {history : History α} (hkept : history.Kept)
    {ending : EndCondition α} {event : Event α} {next : EventQueue α}
    (hpop : history.queue.pop? ending = some (event, next)) :
    history.Waiting event ∧
      ∀ other, history.Waiting other → other ≠ event → event.Precedes other := by
  have hfuture := (pop?_eq_some hpop).1
  have hsorted := hkept.sorted
  simp only [hkept.waiting_iff, hfuture] at hsorted ⊢
  refine ⟨List.mem_cons_self, ?_⟩
  intro other hother hne
  rcases List.mem_cons.mp hother with rfl | hrest
  · contradiction
  · exact (List.pairwise_cons.mp hsorted).1 other hrest

section

variable [Std.TransCmp (Arith.order : α → α → Ordering)]

/-- A pushed event is placed behind those of its time, which have smaller serial
numbers. -/
theorem Kept.push {history : History α} (hkept : history.Kept) (time : Time α)
    (target : Target) (message : Message) :
    (history.step (.push time target message)).Kept := by
  have hperm := place_perm
    ⟨history.queue.delivery time, history.queue.serial, target, message⟩
    history.queue.future
  constructor
  case ordered => exact hkept.ordered.push time target message
  case sorted =>
    exact place_precedes hkept.sorted fun other => hkept.serial_lt
  case accounted =>
    rw [events_push, ← hkept.serial_eq]
    have hplaced := (hperm.append_left history.returned).trans List.perm_middle
    have hpushed := hkept.accounted.cons
      ⟨history.queue.delivery time, history.queue.serial, target, message⟩
    exact (hplaced.trans hpushed).trans (List.perm_append_singleton _ _).symm
  case serial_eq =>
    simp only [step, EventQueue.push, List.length_append, hkept.serial_eq]
    rfl
  case processed_eq => exact hkept.processed_eq
  case now_eq => exact hkept.now_eq
  case past => exact hkept.past
  case nondecreasing => exact hkept.nondecreasing

/-- A popped event is the first of the queue, and what was popped before is due
no later than the clock was. -/
theorem Kept.pop {history : History α} (hkept : history.Kept)
    (ending : EndCondition α) : (history.step (.pop ending)).Kept := by
  cases hpop : history.queue.pop? ending with
  | none =>
      have hsame : history.step (.pop ending) = history := by
        simp only [step, hpop]
      rw [hsame]
      exact hkept
  | some popped =>
      obtain ⟨event, queue⟩ := popped
      obtain ⟨hfuture, hnow, hprocessed⟩ := pop?_eq_some hpop
      obtain ⟨hordered, hclock⟩ := hkept.ordered.pop hpop
      have hstep : history.step (.pop ending) =
          ⟨queue, history.bookings, history.returned ++ [event]⟩ := by
        simp only [step, hpop]
      have hpast : ∀ earlier ∈ history.returned,
          earlier.time.isBy event.time = true := fun earlier hearlier =>
        Time.isBy_trans (hkept.past earlier hearlier) (hnow ▸ hclock)
      rw [hstep]
      constructor
      case ordered => exact hordered
      case sorted =>
        have hsorted := hkept.sorted
        rw [hfuture] at hsorted
        exact hsorted.of_cons
      case accounted =>
        have haccounted := hkept.accounted
        rw [hfuture] at haccounted
        rw [List.append_assoc]
        exact haccounted
      case serial_eq => exact (pop?_serial hpop).trans hkept.serial_eq
      case processed_eq => simp [hprocessed, hkept.processed_eq]
      case now_eq => simp [hnow]
      case past =>
        intro earlier hearlier
        rw [hnow]
        rcases List.mem_append.mp hearlier with hbefore | hlast
        · exact hpast earlier hbefore
        · obtain rfl := List.mem_singleton.mp hlast
          exact Time.isBy_refl _
      case nondecreasing =>
        rw [List.pairwise_append]
        refine ⟨hkept.nondecreasing, List.pairwise_singleton _ _, ?_⟩
        intro earlier hearlier later hlater
        obtain rfl := List.mem_singleton.mp hlater
        exact hpast earlier hearlier

theorem Kept.step {history : History α} (hkept : history.Kept) (call : Call α) :
    (history.step call).Kept := by
  cases call with
  | push time target message => exact hkept.push time target message
  | schedule delay target message =>
      rw [step_schedule]
      exact hkept.push _ target message
  | pop ending => exact hkept.pop ending

theorem after_kept (calls : List (Call α)) : (after calls).Kept := by
  have hrun : ∀ (history : History α), history.Kept →
      (calls.foldl History.step history).Kept := by
    induction calls with
    | nil => exact fun _ hkept => hkept
    | cons call rest ih => exact fun _ hkept => ih _ (hkept.step call)
  exact hrun fresh fresh_kept

/-- Whatever was popped before a push is due by the clock and has a smaller serial
number than the pushed event. -/
theorem Kept.push_behind {history : History α} (hkept : history.Kept)
    (hsorted : (history.returned ++ history.queue.future).Pairwise
      Event.Precedes) (time : Time α) (target : Target) (message : Message) :
    let pushed := history.step (.push time target message)
    (pushed.returned ++ pushed.queue.future).Pairwise Event.Precedes := by
  rw [List.pairwise_append] at hsorted
  obtain ⟨hreturned, _, happart⟩ := hsorted
  refine List.pairwise_append.mpr
    ⟨hreturned, (hkept.push time target message).sorted, ?_⟩
  intro earlier hearlier later hlater
  rcases mem_place.mp hlater with rfl | hwaiting
  · apply Event.precedes_of_isBy
    · exact Time.isBy_trans (hkept.past earlier hearlier)
        (history.queue.isBy_delivery time)
    · rw [hkept.serial_eq]
      exact history.serial_lt (hkept.mem_events hearlier)
  · exact happart earlier hearlier later hwaiting

/-- What was popped and what waits are sorted as one list. -/
theorem after_sorted (calls : List (Call α)) :
    ((after calls).returned ++ (after calls).queue.future).Pairwise
      Event.Precedes := by
  induction calls using List.reverseRecOn with
  | nil => simp [after, fresh, empty]
  | append_singleton calls call ih =>
      have hkept := after_kept calls
      rw [after_concat]
      cases call with
      | push time target message => exact hkept.push_behind ih time target message
      | schedule delay target message =>
          rw [step_schedule]
          exact hkept.push_behind ih _ target message
      | pop ending =>
          cases hpop : (after calls).queue.pop? ending with
          | none => simpa only [step, hpop] using ih
          | some popped =>
              rw [(pop?_eq_some hpop).1] at ih
              simpa only [step, hpop, List.append_assoc,
                List.singleton_append] using ih

/-- An event is popped before another one exactly if it comes first by time and
serial number. -/
theorem popped_before_iff {calls : List (Call α)} {a b : Event α}
    (ha : a ∈ (after calls).events) (hb : b ∈ (after calls).returned) :
    [a, b].Sublist (after calls).returned ↔ a.Precedes b := by
  have hsorted := after_sorted calls
  rw [List.pairwise_append] at hsorted
  obtain ⟨hreturned, _, happart⟩ := hsorted
  constructor
  · intro hsub
    simpa using hreturned.sublist hsub
  · intro hab
    have hkept := after_kept calls
    have hfirst : a ∈ (after calls).returned := by
      apply (List.mem_append.mp (hkept.accounted.mem_iff.mpr ha)).resolve_right
      exact fun hwaiting => hab.asymm (happart b hb a hwaiting)
    obtain ⟨front, back, hsplit⟩ := List.append_of_mem hb
    rw [hsplit] at hfirst hreturned ⊢
    have hback := (List.pairwise_cons.mp
      (List.pairwise_append.mp hreturned).2.1).1
    have hfront : a ∈ front := by
      rcases List.mem_append.mp hfirst with hfront | hrest
      · exact hfront
      · rcases List.mem_cons.mp hrest with rfl | hlater
        · exact absurd hab hab.asymm
        · exact absurd (hback a hlater) hab.asymm
    exact (List.singleton_sublist.mpr hfront).append
      (List.singleton_sublist.mpr List.mem_cons_self)

theorem serial_popped_before_iff {calls : List (Call α)} {early late : Nat}
    {first second : Booking α}
    (hfirst : (after calls).bookings[early]? = some first)
    (hsecond : (after calls).bookings[late]? = some second)
    (hpopped : late ∈ (after calls).returned.map Event.serial) :
    [early, late].Sublist ((after calls).returned.map Event.serial) ↔
      (first.event early).Precedes (second.event late) := by
  have hkept := after_kept calls
  obtain ⟨event, hreturned, hserial⟩ := List.mem_map.mp hpopped
  obtain rfl := eq_event hsecond (hkept.mem_events hreturned) hserial
  rw [← popped_before_iff (event_mem hfirst) hreturned]
  constructor
  · intro hsub
    obtain ⟨pair, hpair, hserials⟩ := List.sublist_map_iff.mp hsub
    obtain ⟨a, rest, rfl, ha, hrest⟩ := List.map_eq_cons_iff.mp hserials.symm
    obtain ⟨b, none, rfl, hb, hnone⟩ := List.map_eq_cons_iff.mp hrest
    obtain rfl := List.map_eq_nil_iff.mp hnone
    have hsame := eq_event hfirst (hkept.mem_events (hpair.subset (by simp))) ha
    have hsame' := eq_event hsecond (hkept.mem_events (hpair.subset (by simp))) hb
    rwa [hsame, hsame'] at hpair
  · exact fun hsub => hsub.map Event.serial

/-- What a queue promises of the events that were pushed: each waits until it is
popped, and the next one is the first of those that wait. -/
structure Delivers (history : History α) : Prop where
  /-- An event is due when it was asked for, or at the clock of its push. -/
  timed : ∀ event ∈ history.returned ++ history.queue.future,
    ∃ booking, history.bookings[event.serial]? = some booking ∧
      event.target = booking.target ∧ event.message = booking.message ∧
      event.time = if booking.requested.isBefore booking.clock
        then booking.clock else booking.requested
  /-- Each pushed event was popped once or is in the queue once. -/
  accounted : (history.returned ++ history.queue.future).Perm history.events
  once : history.returned.Nodup
  counted : history.returned.length + history.queue.size =
    history.events.length
  clock : history.queue.now =
    (history.returned.getLast?.map Event.time).getD Time.zero
  processed : history.queue.processed = history.returned.length
  nondecreasing : history.returned.Pairwise fun a b =>
    a.time.isBy b.time = true
  least : ∀ (ending : EndCondition α) (event : Event α) (next : EventQueue α),
    history.queue.pop? ending = some (event, next) →
      history.Waiting event ∧
        ∀ other, history.Waiting other → other ≠ event → event.Precedes other
  /-- Only an empty queue and a limit before all that waits stop a pop. -/
  stopped : ∀ ending : EndCondition α,
    history.queue.pop? ending = none ↔
      (∀ event, ¬history.Waiting event) ∨
        ∃ limit, ending = .limit limit ∧
          ∀ event, history.Waiting event → event.time.isAfter limit = true
  unchanged : ∀ ending : EndCondition α, history.queue.pop? ending = none →
    history.step (.pop ending) = history

theorem Kept.stopped {history : History α} (hkept : history.Kept)
    (ending : EndCondition α) :
    history.queue.pop? ending = none ↔
      (∀ event, ¬history.Waiting event) ∨
        ∃ limit, ending = .limit limit ∧
          ∀ event, history.Waiting event → event.time.isAfter limit = true := by
  have hsorted := hkept.sorted
  simp only [hkept.waiting_iff, pop?_eq_none]
  cases hfuture : history.queue.future with
  | nil => simp
  | cons head rest =>
      rw [hfuture] at hsorted
      have hfirst : ∀ event ∈ head :: rest,
          head.time.isBy event.time = true := by
        intro event hevent
        rcases List.mem_cons.mp hevent with rfl | hrest
        · exact Time.isBy_refl _
        · exact ((List.pairwise_cons.mp hsorted).1 event hrest).isBy
      rw [or_iff_right fun hnone => hnone head List.mem_cons_self]
      cases ending with
      | drained => simp [admits]
      | limit limit =>
          simp only [List.head?_cons, Option.mem_some_iff, forall_eq', admits,
            Bool.not_eq_eq_eq_not, Bool.not_false, EndCondition.limit.injEq,
            exists_eq_left']
          constructor
          · intro hafter event hevent
            exact Time.isAfter_of_isBy hafter (hfirst event hevent)
          · exact fun hall => hall head List.mem_cons_self

theorem after_delivers (calls : List (Call α)) : (after calls).Delivers := by
  have hkept := after_kept calls
  have hnodup := hkept.accounted.nodup_iff.mpr (after calls).nodup_events
  constructor
  case timed => exact fun event => hkept.timed
  case accounted => exact hkept.accounted
  case once => exact (List.nodup_append.mp hnodup).1
  case counted =>
    rw [← hkept.accounted.length_eq, List.length_append]
    rfl
  case clock => exact hkept.now_eq
  case processed => exact hkept.processed_eq
  case nondecreasing => exact hkept.nondecreasing
  case least => exact fun _ _ _ => hkept.least
  case stopped => exact hkept.stopped
  case unchanged =>
    intro ending hnone
    simp only [step, hnone]

end

/-- Two zeros that differ, an undefined time and a span into the past. -/
def mixedCalls : List (Call Binary64) :=
  let negativeZero : Time Binary64 := ⟨-Arith.zero⟩
  let undefined : Time Binary64 := ⟨Arith.ofLiteral (.undefined false)⟩
  let limit : Time Binary64 := ⟨Arith.ofNat 3⟩
  [.push Time.zero .gateway .gatewayWake,
    .push negativeZero .gateway .decisionDue,
    .push undefined .gateway .gatewayWake,
    .push ⟨Arith.ofNat 5⟩ .gateway .gatewayWake,
    .pop .drained, .pop (.limit limit),
    .schedule ⟨-Arith.one⟩ .gateway .decisionDue,
    .pop (.limit limit), .pop (.limit limit), .pop .drained, .pop .drained]

/-- The negative zero and the past are moved to the clock, the limit stops one pop
and the undefined time comes last. -/
theorem mixedCalls_delivered :
    (after mixedCalls).Delivers ∧
      (after mixedCalls).returned.map Event.serial = [0, 1, 4, 3, 2] ∧
      (after mixedCalls).returned.map Event.time =
        [Time.zero, Time.zero, Time.zero, ⟨Arith.ofNat 5⟩,
          ⟨Arith.ofLiteral (.undefined false)⟩] :=
  ⟨after_delivers mixedCalls, by decide +kernel, by decide +kernel⟩

end History
end EventQueue
end FogDispatch
