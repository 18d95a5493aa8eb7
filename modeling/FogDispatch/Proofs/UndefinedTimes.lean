import FogDispatch.Proofs.DeliveryOrder

/-!
# Undefined times

An undefined time has a sign like every other time.  Without the sign bit it
comes after all defined times, and with it before all of them.  So of the
messages that are pushed on a new queue those whose undefined time is negative
are in the past: they are moved to the clock and popped at the very start, and
only the others are popped last.
-/

namespace FogDispatch

namespace Binary64

theorem isUndefined_iff (a : Binary64) :
    a.isUndefined = true ↔ 0x7ff0000000000000 < a.magnitude.toNat := by
  simp [isUndefined, UInt64.lt_iff_toNat_lt]

/-- The sign of an undefined word alone decides on which side of the defined words
it stands. -/
theorem order_of_undefined {a b : Binary64} (ha : a.isUndefined = true)
    (hb : b.isUndefined = false) :
    Arith.order a b = if a.isNegative then .lt else .gt := by
  rw [isUndefined_iff] at ha
  rw [← Bool.not_eq_true, isUndefined_iff] at hb
  change compare a.rank b.rank = _
  unfold rank
  by_cases hsign : a.isNegative = true
  · rw [if_pos hsign, if_pos hsign, compare_lt_iff_lt]
    split <;> omega
  · rw [if_neg hsign, if_neg hsign, compare_gt_iff_gt]
    split <;> omega

end Binary64

theorem Time.order_of_undefined {t u : Time Binary64}
    (ht : t.value.isUndefined = true) (hu : u.value.isUndefined = false) :
    t.order u = if t.value.isNegative then .lt else .gt :=
  Binary64.order_of_undefined ht hu

namespace EventQueue

/-! ## Messages pushed at one clock -/

namespace Booking

/-- A message is due at the clock if it is asked for by then, and later otherwise. -/
theorem order_due {α : Type} [Arith α]
    [Std.TransCmp (Arith.order : α → α → Ordering)] (booking : Booking α) :
    booking.due.order booking.clock =
      if booking.requested.isBy booking.clock then .eq else .gt := by
  unfold due Time.isBefore Time.isBy
  cases horder : booking.requested.order booking.clock <;>
    simp [horder, Std.ReflCmp.compare_self]

theorem due_defined {booking : Booking Binary64}
    (hrequested : booking.requested.value.isUndefined = false)
    (hclock : booking.clock.value.isUndefined = false) :
    booking.due.value.isUndefined = false := by
  unfold due
  split
  · exact hclock
  · exact hrequested

theorem due_of_undefined {booking : Booking Binary64}
    (hrequested : booking.requested.value.isUndefined = true)
    (hclock : booking.clock.value.isUndefined = false) :
    booking.due = if booking.requested.value.isNegative then booking.clock
      else booking.requested := by
  unfold due Time.isBefore
  rw [Time.order_of_undefined hrequested hclock]
  cases booking.requested.value.isNegative <;> simp

/-- A positive undefined time leaves all defined ones before it.  A negative one
leaves those before it that were pushed earlier and are due at the clock too. -/
theorem precedes_undefined_iff {early late : Booking Binary64} (i j : Nat)
    (hclock : early.clock = late.clock)
    (hpresent : late.clock.value.isUndefined = false)
    (hlate : late.requested.value.isUndefined = true)
    (hearly : early.requested.value.isUndefined = false) :
    (early.event j).Precedes (late.event i) ↔
      late.requested.value.isNegative = false ∨
        early.requested.isBy late.clock = true ∧ j < i := by
  have hlatest := due_of_undefined hlate hpresent
  have hdefined := due_defined hearly (hclock ▸ hpresent)
  unfold Event.Precedes event Time.isBefore
  cases hsign : late.requested.value.isNegative with
  | false =>
      -- It keeps its time, and no clock moves a defined time behind that.
      have horder : late.requested.order early.due = .gt := by
        simpa [hsign] using Time.order_of_undefined hlate hdefined
      have hswap : early.due.order late.requested = .lt :=
        Std.OrientedCmp.lt_of_gt horder
      simp [hlatest, hsign, hswap]
  | true =>
      -- It is due at the clock, so nothing is due before it and only the messages
      -- due at the clock as well are told apart by the order of the pushes.
      have horder := early.order_due
      rw [hclock] at horder
      simp only [hlatest, hsign, if_true, horder]
      split <;> simp_all

end Booking

/-! ## A queue that is filled and then emptied -/

structure Posting (α : Type) where
  time : Time α
  target : Target
  message : Message

namespace Posting

variable {α : Type}

def call (posting : Posting α) : Call α :=
  .push posting.time posting.target posting.message

def booking (clock : Time α) (posting : Posting α) : Booking α :=
  ⟨posting.time, clock, posting.target, posting.message⟩

end Posting

namespace History

section

variable {α : Type} [Arith α]

def posted (postings : List (Posting α)) (endings : List (EndCondition α)) :
    History α :=
  after (postings.map Posting.call ++ endings.map Call.pop)

theorem posted_eq (postings : List (Posting α)) (endings : List (EndCondition α)) :
    posted postings endings =
      (endings.map Call.pop).foldl step (after (postings.map Posting.call)) :=
  List.foldl_append

theorem foldl_push_bookings (history : History α) (postings : List (Posting α)) :
    ((postings.map Posting.call).foldl step history).bookings =
      history.bookings ++ postings.map (Posting.booking history.queue.now) := by
  induction postings generalizing history with
  | nil => simp
  | cons posting rest ih =>
      rw [List.map_cons, List.foldl_cons, ih]
      simp [Posting.call, Posting.booking, step]

theorem step_pop_bookings (history : History α) (ending : EndCondition α) :
    (history.step (.pop ending)).bookings = history.bookings := by
  cases hpop : history.queue.pop? ending <;> simp only [step, hpop]

theorem foldl_pop_bookings (history : History α) (endings : List (EndCondition α)) :
    ((endings.map Call.pop).foldl step history).bookings = history.bookings := by
  induction endings generalizing history with
  | nil => rfl
  | cons ending rest ih =>
      rw [List.map_cons, List.foldl_cons, ih, step_pop_bookings]

theorem bookings_filled (postings : List (Posting α)) :
    (after (postings.map Posting.call)).bookings =
      postings.map (Posting.booking Time.zero) :=
  foldl_push_bookings fresh postings

theorem bookings_posted (postings : List (Posting α))
    (endings : List (EndCondition α)) :
    (posted postings endings).bookings =
      postings.map (Posting.booking Time.zero) := by
  rw [posted_eq, foldl_pop_bookings, bookings_filled]

variable [DecidableEq α]

/-- A pop without a limit takes an event as long as there is one. -/
theorem size_pop_le (history : History α) (ending : EndCondition α) :
    (history.step (.pop ending)).queue.size ≤
      history.queue.size - if ending = .drained then 1 else 0 := by
  cases hpop : history.queue.pop? ending with
  | none =>
      simp only [step, hpop]
      split
      next hdrained =>
        rw [hdrained] at hpop
        simp [size, pop?_drained_eq_none hpop]
      next => exact le_rfl
  | some popped =>
      simp only [step, hpop, size, (pop?_eq_some hpop).1, List.length_cons]
      split <;> omega

theorem future_of_pops (history : History α) (endings : List (EndCondition α))
    (henough : history.queue.size ≤ endings.count .drained) :
    ((endings.map Call.pop).foldl step history).queue.future = [] := by
  induction endings generalizing history with
  | nil => exact List.length_eq_zero_iff.mp (Nat.le_zero.mp henough)
  | cons ending rest ih =>
      apply ih
      have hsize := history.size_pop_le ending
      rw [List.count_cons] at henough
      by_cases hdrained : ending = .drained
      · rw [if_pos hdrained] at hsize
        rw [if_pos (beq_iff_eq.mpr hdrained)] at henough
        omega
      · rw [if_neg hdrained] at hsize
        rw [if_neg (by simpa using hdrained)] at henough
        omega

theorem popped_of_posted [Std.TransCmp (Arith.order : α → α → Ordering)]
    {postings : List (Posting α)} {endings : List (EndCondition α)}
    (henough : postings.length ≤ endings.count .drained) :
    ((posted postings endings).returned.map Event.serial).Perm
      (List.range postings.length) := by
  have hsize : (after (postings.map Posting.call)).queue.size ≤
      postings.length := by
    have hlength :=
      (after_kept (postings.map Posting.call)).accounted.length_eq
    rw [List.length_append, events, List.length_mapIdx, bookings_filled,
      List.length_map] at hlength
    exact (Nat.le_add_left ..).trans hlength.le
  have hfuture : (posted postings endings).queue.future = [] := by
    rw [posted_eq]
    exact future_of_pops _ endings (hsize.trans henough)
  have hall : ((posted postings endings).returned ++
      (posted postings endings).queue.future).Perm
        (posted postings endings).events := (after_kept _).accounted
  rw [hfuture, List.append_nil] at hall
  have hserials := hall.map Event.serial
  rwa [map_serial_events, bookings_posted, List.length_map] at hserials

end

/-- Fill a new queue and pop its events, with any limits.  A message of an
undefined time keeps its time if that is positive, and is moved to the clock
otherwise.  When it is popped, a message of a defined time has been popped before
it exactly if the undefined time is positive, or the message was pushed earlier
at a time that is not after the clock either.  Enough pops without a limit pop
every message once. -/
theorem defined_popped_first_iff (postings : List (Posting Binary64))
    (endings : List (EndCondition Binary64)) {i j : Nat}
    {undefined defined : Posting Binary64}
    (hi : postings[i]? = some undefined) (hj : postings[j]? = some defined)
    (hundefined : undefined.time.value.isUndefined = true)
    (hdefined : defined.time.value.isUndefined = false) :
    let popped := (posted postings endings).returned
    let negative := undefined.time.value.isNegative
    undefined.time.order defined.time = (if negative then .lt else .gt) ∧
    (∀ event ∈ popped, event.serial = i →
      event.time = if negative then Time.zero else undefined.time) ∧
    (i ∈ popped.map Event.serial →
      ([j, i].Sublist (popped.map Event.serial) ↔
        negative = false ∨ defined.time.isBy Time.zero = true ∧ j < i)) ∧
    (postings.length ≤ endings.count .drained →
      (popped.map Event.serial).Perm (List.range postings.length)) := by
  intro popped negative
  have hzero : (Time.zero : Time Binary64).value.isUndefined = false := by
    decide +kernel
  have hlate : (posted postings endings).bookings[i]? =
      some (undefined.booking Time.zero) := by
    simp [bookings_posted, hi]
  have hearly : (posted postings endings).bookings[j]? =
      some (defined.booking Time.zero) := by
    simp [bookings_posted, hj]
  refine ⟨Time.order_of_undefined hundefined hdefined, ?_, ?_, popped_of_posted⟩
  · intro event hevent hserial
    rw [eq_event hlate ((after_kept _).mem_events hevent) hserial]
    exact Booking.due_of_undefined hundefined hzero
  · intro hpopped
    exact (serial_popped_before_iff hearly hlate hpopped).trans
      (Booking.precedes_undefined_iff i j rfl hzero hundefined hdefined)

def wake (bits : UInt64) : Posting Binary64 :=
  ⟨⟨⟨bits⟩⟩, .gateway, .gatewayWake⟩

/-- The undefined words next to the two infinities, one second in the past and the
infinities themselves. -/
def border : List (Posting Binary64) :=
  [wake 0x7ff0000000000001, wake 0xbff0000000000000, wake 0xfff0000000000001,
    wake 0x7ff0000000000000, wake 0xfff0000000000000]

/-- Infinity is popped before the positive undefined time.  Of the messages in the
past the one that was pushed before the negative undefined time is popped before
it, and negative infinity is popped after it. -/
theorem border_popped :
    let popped := (posted border (List.replicate 5 .drained)).returned.map
      Event.serial
    popped = [1, 2, 4, 3, 0] ∧ [3, 0].Sublist popped ∧
      [1, 2].Sublist popped ∧ ¬ [4, 2].Sublist popped := by
  intro popped
  have hpopped : popped = [1, 2, 4, 3, 0] := by decide +kernel
  have hall : 0 ∈ popped ∧ 2 ∈ popped := by simp [hpopped]
  refine ⟨hpopped, ?_, ?_, ?_⟩
  · have hpositive := defined_popped_first_iff border (List.replicate 5 .drained)
      (i := 0) (j := 3) rfl rfl (by decide +kernel) (by decide +kernel)
    exact (hpositive.2.2.1 hall.1).mpr (.inl (by decide +kernel))
  · have hearlier := defined_popped_first_iff border (List.replicate 5 .drained)
      (i := 2) (j := 1) rfl rfl (by decide +kernel) (by decide +kernel)
    exact (hearlier.2.2.1 hall.2).mpr (.inr (by decide +kernel))
  · have hlater := defined_popped_first_iff border (List.replicate 5 .drained)
      (i := 2) (j := 4) rfl rfl (by decide +kernel) (by decide +kernel)
    rw [hlater.2.2.1 hall.2]
    decide +kernel

/-- One second and the undefined time that a division of zero by zero gives. -/
def startled : List (Posting Binary64) :=
  [wake 0x3ff0000000000000, wake 0xfff8000000000000]

/-- The undefined time is ordered before the second and popped first, at the start. -/
theorem negative_undefined_popped_first :
    (startled.map fun posting => posting.time.value.isUndefined) =
        [false, true] ∧
      Arith.order (⟨0xfff8000000000000⟩ : Binary64) ⟨0x3ff0000000000000⟩ = .lt ∧
      (posted startled [.drained, .drained]).returned.map Event.serial = [1, 0] ∧
      (posted startled [.drained, .drained]).returned.map Event.time =
        [Time.zero, ⟨⟨0x3ff0000000000000⟩⟩] := by
  decide +kernel

end History
end EventQueue
end FogDispatch
