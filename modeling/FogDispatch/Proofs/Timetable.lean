import FogDispatch.Number.Rational
import FogDispatch.Proofs.Appointments
import FogDispatch.Proofs.Precedence

/-!
# The timetable of an episode

A placed task has an appointment: it starts at a time that its decision foresaw
and is done after its running time.  With exact clocks and no negative delays
nothing shifts an appointment.  Its submission is due at the start, its
completion is due at the end, and a finish that is noted is that end.  Only
appointments within the deadline are made, so they all stay within it.
-/

namespace FogDispatch

/-! ## Exact clocks -/

instance : Std.TransCmp (Arith.order : ℚ → ℚ → Ordering) :=
  inferInstanceAs (Std.TransCmp (compare : ℚ → ℚ → Ordering))

namespace Time

@[simp] theorem value_add (t : Time ℚ) (d : Span ℚ) :
    (t + d).value = t.value + d.value := rfl

theorem isAfter_iff_lt {t u : Time ℚ} :
    t.isAfter u = true ↔ u.value < t.value := by
  have hafter : t.isAfter u = (compare t.value u.value == .gt) := rfl
  rw [hafter, beq_iff_eq, compare_gt_iff_gt]

theorem isBy_iff_le {t u : Time ℚ} :
    t.isBy u = true ↔ t.value ≤ u.value := by
  rw [isBy_eq_not_isAfter, Bool.not_eq_true', ← Bool.not_eq_true,
    isAfter_iff_lt, not_lt]

theorem add_span_add (t : Time ℚ) (d e : Span ℚ) : t + (d + e) = t + d + e :=
  congrArg mk (add_assoc t.value d.value e.value).symm

end Time

namespace EventQueue

theorem delivery_le {queue : EventQueue ℚ} (time : Time ℚ) :
    time.value ≤ (queue.delivery time).value := by
  unfold delivery
  split
  next hbefore => exact Time.isBy_iff_le.mp (Time.isBy_of_isBefore hbefore)
  next => exact le_refl _

/-- What is scheduled with a delay of at least zero is due after exactly this
delay. -/
theorem delivery_add {queue : EventQueue ℚ} {delay : Span ℚ}
    (hdelay : 0 ≤ delay.value) :
    queue.delivery (queue.now + delay) = queue.now + delay := by
  unfold delivery
  split
  next hbefore =>
    have hby : (queue.now + delay).isBy queue.now = true :=
      Time.isBy_of_isBefore hbefore
    rw [Time.isBy_iff_le, Time.value_add] at hby
    have hzero : delay.value = 0 := by linarith
    exact congrArg Time.mk (by linarith)
  next => rfl

end EventQueue

/-! ## What is due -/

namespace Context

/-- Neither moving the data of a task nor running it takes a negative time. -/
structure Forward (ctx : Context ℚ) : Prop where
  transfer : ∀ id task datacenter, ctx.task? id = some task →
    0 ≤ (ctx.network.transferDelay datacenter task.storage).value
  running : ∀ id task place node, ctx.task? id = some task →
    ctx.topology.node? place = some node →
      0 ≤ (node.runningTime task.length).value

/-- An event comes when the appointment of its task says so. -/
def Agrees (ctx : Context ℚ) (event : Event ℚ) : Prop :=
  match event.message with
  | .taskArrival id => ∀ task, ctx.task? id = some task →
      task.arrival.value ≤ event.time.value
  | .gatewayWake => True
  | .decisionDue => True
  | .taskSubmit id place => ∃ task done, ctx.task? id = some task ∧
      ctx.Booked task place event.time done
  | .taskFinished id place => ∃ task start, ctx.task? id = some task ∧
      ctx.Booked task place start event.time

namespace Extends

variable {ctx later : Context ℚ}

theorem forward (hextends : ctx.Extends later) (hforward : ctx.Forward) :
    later.Forward := by
  constructor
  · intro id task datacenter htask
    obtain ⟨before, hbefore, hterms⟩ := hextends.known id task htask
    have hstorage : task.storage = before.storage :=
      congrArg Terms.storage hterms
    rw [hextends.network, hstorage]
    exact hforward.transfer id before datacenter hbefore
  · intro id task place node htask hnode
    obtain ⟨before, hbefore, hterms⟩ := hextends.known id task htask
    have hlength : task.length = before.length :=
      congrArg Terms.length hterms
    obtain ⟨earlier, hearlier, hmarked⟩ :=
      Topology.exists_node_of_reset hextends.reset.symm hnode
    rw [hlength, ← Node.runningTime_of_markIdle hmarked]
    exact hforward.running id before place earlier hbefore hearlier

theorem agrees (hextends : ctx.Extends later) {event : Event ℚ}
    (hagrees : ctx.Agrees event) : later.Agrees event := by
  obtain ⟨time, serial, target, message⟩ := event
  cases message with
  | taskArrival id =>
      intro task htask
      obtain ⟨before, hbefore, hterms⟩ := hextends.known id task htask
      have harrival : task.arrival = before.arrival :=
        congrArg Terms.arrival hterms
      rw [harrival]
      exact hagrees before hbefore
  | gatewayWake => trivial
  | decisionDue => trivial
  | taskSubmit id place =>
      obtain ⟨before, done, hbefore, hbooked⟩ := hagrees
      obtain ⟨task, htask, hkept⟩ :=
        hextends.booked id before place time done hbefore hbooked
      exact ⟨task, done, htask, hkept⟩
  | taskFinished id place =>
      obtain ⟨before, start, hbefore, hbooked⟩ := hagrees
      obtain ⟨task, htask, hkept⟩ :=
        hextends.booked id before place start time hbefore hbooked
      exact ⟨task, start, htask, hkept⟩

end Extends

theorem misses_eq_false_iff {ctx : Context ℚ} {task : Task ℚ} {node : Node ℚ}
    {now : Time ℚ} {cost : Span ℚ} :
    ctx.misses task node now cost = false ↔
      (ctx.startOn task node now cost + node.runningTime task.length).value ≤
        task.deadline.value := by
  rw [← Time.isBy_iff_le, Time.isBy_eq_not_isAfter, Bool.not_eq_true']
  rfl

end Context

namespace Simulation

/-- What is due and what is noted agrees with the appointments, and these are
within the deadlines. -/
structure Timetable (sim : Simulation ℚ) : Prop where
  forward : sim.context.Forward
  due : ∀ event ∈ sim.queue.future, sim.context.Agrees event
  arrived : ∀ id ∈ sim.gateway.pending, ∀ task,
    sim.context.task? id = some task →
      task.arrival.value ≤ sim.queue.now.value
  finished : ∀ id task finish, sim.context.task? id = some task →
    task.finish = some finish → ∃ place start,
      sim.context.Booked task place start finish
  met : ∀ id task place start done, sim.context.task? id = some task →
    sim.context.Booked task place start done →
      done.value ≤ task.deadline.value

namespace Timetable

variable {sim other popped : Simulation ℚ} {ending : EndCondition ℚ}
  {event : Event ℚ}

theorem extend (htable : sim.Timetable)
    (hextends : sim.context.Extends other.context)
    (hpending : ∀ id ∈ other.gateway.pending, id ∈ sim.gateway.pending)
    (hnow : sim.queue.now.value ≤ other.queue.now.value)
    (hfuture : ∀ event ∈ other.queue.future, event ∈ sim.queue.future)
    (hfinished : ∀ id task finish, other.context.task? id = some task →
      task.finish = some finish → ∃ place start,
        other.context.Booked task place start finish)
    (hmet : ∀ id task place start done, other.context.task? id = some task →
      other.context.Booked task place start done →
        done.value ≤ task.deadline.value) : other.Timetable := by
  constructor
  case forward => exact hextends.forward htable.forward
  case due =>
    intro event hevent
    exact hextends.agrees (htable.due event (hfuture event hevent))
  case arrived =>
    intro id hid task htask
    obtain ⟨before, hbefore, hterms⟩ := hextends.known id task htask
    have harrival : task.arrival = before.arrival :=
      congrArg Terms.arrival hterms
    rw [harrival]
    exact (htable.arrived id (hpending id hid) before hbefore).trans hnow
  case finished => exact hfinished
  case met => exact hmet

theorem of_slot (htable : sim.Timetable)
    (hnetwork : other.context.network = sim.context.network)
    (hreset : other.context.topology.reset = sim.context.topology.reset)
    (hslot : ∀ id, (other.context.task? id).map Task.slot =
      (sim.context.task? id).map Task.slot)
    (hpending : ∀ id ∈ other.gateway.pending, id ∈ sim.gateway.pending)
    (hnow : sim.queue.now.value ≤ other.queue.now.value)
    (hfuture : ∀ event ∈ other.queue.future, event ∈ sim.queue.future)
    (hfinished : ∀ id task finish, other.context.task? id = some task →
      task.finish = some finish → ∃ place start,
        other.context.Booked task place start finish) :
    other.Timetable := by
  -- The slots are the same both ways, so no appointment is new either.
  have hforth := Context.Extends.of_slot hnetwork hreset hslot
  have hback := Context.Extends.of_slot hnetwork.symm hreset.symm
    fun id => (hslot id).symm
  apply htable.extend hforth hpending hnow hfuture hfinished
  intro id task place start done htask hbooked
  obtain ⟨before, hbefore, hterms⟩ := hforth.known id task htask
  obtain ⟨row, hrow, hkept⟩ :=
    hback.booked id task place start done htask hbooked
  obtain rfl : row = before := by simpa [hbefore] using hrow.symm
  have hdeadline : task.deadline = row.deadline :=
    congrArg Terms.deadline hterms
  rw [hdeadline]
  exact htable.met id row place start done hrow hkept

/-- Where no task changes and nothing is scheduled, the timetable stands. -/
theorem quiet (htable : sim.Timetable)
    (hnetwork : other.context.network = sim.context.network)
    (hreset : other.context.topology.reset = sim.context.topology.reset)
    (htask : ∀ id, other.context.task? id = sim.context.task? id)
    (hpending : ∀ id ∈ other.gateway.pending, id ∈ sim.gateway.pending)
    (hnow : sim.queue.now.value ≤ other.queue.now.value)
    (hfuture : ∀ event ∈ other.queue.future, event ∈ sim.queue.future) :
    other.Timetable := by
  apply htable.of_slot hnetwork hreset _ hpending hnow hfuture
  · intro id task finish hid hnoted
    rw [htask] at hid
    obtain ⟨place, start, hbooked⟩ := htable.finished id task finish hid hnoted
    exact ⟨place, start, hbooked.of_same rfl hreset⟩
  · intro id
    rw [htask]

theorem schedule (htable : sim.Timetable) (delay : Span ℚ) (target : Target)
    (message : Message)
    (hagrees : sim.context.Agrees ⟨sim.queue.delivery (sim.queue.now + delay),
      sim.queue.serial, target, message⟩) :
    ({ sim with queue := sim.queue.schedule delay target message } :
      Simulation ℚ).Timetable := by
  refine ⟨htable.forward, ?_, htable.arrived, htable.finished, htable.met⟩
  intro event hevent
  rcases EventQueue.mem_place.mp hevent with rfl | hold
  · exact hagrees
  · exact htable.due event hold

/-! ## Messages -/

theorem next (htable : sim.Timetable) (hordered : sim.queue.Ordered)
    (hnext : sim.next? ending = some (event, popped)) : popped.Timetable := by
  obtain ⟨hgateway, hcontext, hpop⟩ := next?_eq_some hnext
  obtain ⟨_, hclock⟩ := hordered.pop hpop
  apply htable.quiet
  · rw [hcontext]
  · rw [hcontext]
  · intro id
    rw [hcontext]
  · intro id hid
    rwa [hgateway] at hid
  · exact Time.isBy_iff_le.mp hclock
  · intro other hother
    exact (mem_future_next hnext).mpr (Or.inr hother)

theorem modifyGateway (htable : sim.Timetable)
    {change : Gateway ℚ → Gateway ℚ}
    (hpending : ∀ id ∈ (change sim.gateway).pending,
      id ∈ sim.gateway.pending) : (sim.modifyGateway change).Timetable := by
  apply htable.quiet
  · rfl
  · rfl
  · intro id
    rfl
  · exact hpending
  · exact le_refl _
  · intro event hevent
    exact hevent

theorem hear_arrival {id : TaskId} (htable : sim.Timetable)
    (harrived : ∀ task, sim.context.task? id = some task →
      task.arrival.value ≤ sim.queue.now.value) :
    (sim.modifyGateway fun g =>
      { g with pending := g.pending ++ [id] }).Timetable := by
  refine ⟨htable.forward, htable.due, ?_, htable.finished, htable.met⟩
  intro other hother task htask
  have hmem : other ∈ sim.gateway.pending ++ [id] := hother
  rcases List.mem_append.mp hmem with hold | hnew
  · exact htable.arrived other hold task htask
  · obtain rfl := List.mem_singleton.mp hnew
    exact harrived task htask

/-- A task that reaches its datacenter at its start is done at the end of its
appointment. -/
theorem hear_submission {id : TaskId} {place : NodeId} {task : Task ℚ}
    {done : Time ℚ} (htable : sim.Timetable)
    (htask : sim.context.task? id = some task)
    (hbooked : sim.context.Booked task place sim.queue.now done) :
    (sim.runOnDatacenter (.taskSubmit id place)).Timetable := by
  obtain ⟨node, hnode, hdone⟩ := hbooked.span
  have hrunning := htable.forward.running id task place node htask hnode
  have hqueue : sim.runOnDatacenter (.taskSubmit id place) =
      { sim with
        queue := sim.queue.schedule (node.runningTime task.length) .gateway
          (.taskFinished id place) } := by
    simp only [runOnDatacenter, htask, hnode]
  rw [hqueue]
  apply htable.schedule
  rw [EventQueue.delivery_add hrunning, ← hdone]
  exact ⟨task, sim.queue.now, htask, hbooked⟩

theorem hear_completion {id : TaskId} {place : NodeId} {task : Task ℚ}
    {start : Time ℚ} (htable : sim.Timetable)
    (htask : sim.context.task? id = some task)
    (hbooked : sim.context.Booked task place start sim.queue.now) :
    (sim.onFinished id place).Timetable := by
  have hfreed : ({ sim with
      context := sim.context.finished id place sim.queue.now } :
        Simulation ℚ).Timetable := by
    have hreset :
        (sim.context.finished id place sim.queue.now).topology.reset =
          sim.context.topology.reset := Topology.reset_markIdle _ place
    apply htable.of_slot
    · rfl
    · exact hreset
    · exact sim.context.slot_finished id place sim.queue.now
    · intro other hother
      exact hother
    · exact le_refl _
    · intro event hevent
      exact hevent
    · intro other after finish hafter hnoted
      rw [Context.finished_task?] at hafter
      by_cases heq : id = other
      · subst other
        rw [if_pos rfl, htask, Option.map_some, Option.some.injEq] at hafter
        subst after
        obtain rfl : sim.queue.now = finish := Option.some.inj hnoted
        exact ⟨place, start, hbooked.of_same rfl hreset⟩
      · rw [if_neg heq] at hafter
        obtain ⟨target, begun, hother⟩ :=
          htable.finished other after finish hafter hnoted
        exact ⟨target, begun, hother.of_same rfl hreset⟩
  unfold onFinished
  split
  next => exact hfreed.schedule Span.zero .gateway .decisionDue trivial
  next => exact hfreed.modifyGateway fun _ hid => hid

/-- Every message is taken note of without a change to the timetable. -/
theorem hear (htable : sim.Timetable) (hordered : sim.queue.Ordered)
    (hnext : sim.next? ending = some (event, popped)) :
    (popped.heard event.target event.message).Timetable := by
  have hpopped := htable.next hordered hnext
  obtain ⟨_, hcontext, _⟩ := next?_eq_some hnext
  have hnow := now_next hnext
  have hagrees := htable.due event ((mem_future_next hnext).mpr (Or.inl rfl))
  obtain ⟨time, serial, target, message⟩ := event
  dsimp only at hnow ⊢
  rw [← hcontext, ← hnow] at hagrees
  cases target with
  | datacenter id =>
      cases message with
      | taskSubmit id place =>
          obtain ⟨task, done, htask, hbooked⟩ := hagrees
          exact hpopped.hear_submission htask hbooked
      | taskArrival id => exact hpopped
      | gatewayWake => exact hpopped
      | decisionDue => exact hpopped
      | taskFinished id place => exact hpopped
  | gateway =>
      cases message with
      | taskArrival id => exact hpopped.hear_arrival hagrees
      | gatewayWake =>
          unfold heard
          exact hpopped.modifyGateway fun _ hid => hid
      | decisionDue =>
          simp only [heard]
          split
          next => exact hpopped
          next => exact hpopped.modifyGateway fun _ hid => hid
      | taskSubmit id place => exact hpopped
      | taskFinished id place =>
          obtain ⟨task, start, htask, hbooked⟩ := hagrees
          exact hpopped.hear_completion htask hbooked

/-! ## Decisions -/

/-- A decision that places nothing schedules a wake-up and no more. -/
theorem settle_unplaced (htable : sim.Timetable) {outcome : Outcome ℚ}
    (hunplaced : ∀ id place transfer, outcome ≠ .assigned id place transfer)
    (cost : Span ℚ) (strategy : Strategy ℚ) {ctx : Context ℚ}
    (hnetwork : ctx.network = sim.context.network)
    (htopology : ctx.topology = sim.context.topology)
    (htask : ∀ id, ctx.task? id = sim.context.task? id) :
    (sim.settled (some ⟨outcome, cost⟩) strategy ctx).Timetable := by
  have hdecided : ({ sim.settled (some ⟨outcome, cost⟩) strategy ctx with
      queue := sim.queue } : Simulation ℚ).Timetable := by
    apply htable.quiet
    · exact hnetwork
    · rw [settled_context, htopology]
    · exact htask
    · intro id hid
      rw [settled_pending] at hid
      split at hid
      next => exact List.mem_of_mem_filter hid
      next => exact hid
    · exact le_refl _
    · intro event hevent
      exact hevent
  have hqueue := sim.settled_queue_of_unplaced cost strategy ctx hunplaced
  have hwoken := hdecided.schedule cost .gateway .gatewayWake trivial
  rw [← hqueue] at hwoken
  exact hwoken

/-- A placement within the deadline makes an appointment, and the others stay
as they are. -/
theorem bind (htable : sim.Timetable) {task : Task ℚ} {node : Node ℚ}
    (htask : sim.context.task? task.id = some task)
    (hplace : task.node = none) (hopen : task.finish = none)
    (hnode : sim.context.topology.node? node.id = some node) {cost : Span ℚ}
    (hmeets : sim.context.misses task node sim.queue.now cost = false) :
    ({ sim with context := sim.context.bound task node sim.queue.now cost } :
      Simulation ℚ).Timetable := by
  have hbound := Context.bound_task? htask node sim.queue.now cost
  have hbooked := Context.booked_bound task hnode sim.queue.now cost
  have hextends := Context.extends_bound htask hplace node sim.queue.now cost
  apply htable.extend hextends
  · intro id hid
    exact hid
  · exact le_refl _
  · intro event hevent
    exact hevent
  · intro id row finish hrow hnoted
    rw [hbound] at hrow
    by_cases heq : task.id = id
    · rw [if_pos heq] at hrow
      obtain rfl := Option.some.inj hrow
      rw [hopen] at hnoted
      cases hnoted
    · rw [if_neg heq] at hrow
      obtain ⟨place, start, hother⟩ :=
        htable.finished id row finish hrow hnoted
      exact ⟨place, start, hother.of_same rfl hextends.reset⟩
  · intro id row place start done hrow hown
    rw [hbound] at hrow
    by_cases heq : task.id = id
    · rw [if_pos heq] at hrow
      obtain rfl := Option.some.inj hrow
      obtain ⟨_, _, rfl⟩ := hbooked.unique hown
      exact Context.misses_eq_false_iff.mp hmeets
    · rw [if_neg heq] at hrow
      exact htable.met id row place start done hrow
        (hown.of_same rfl hextends.reset.symm)

/-- The submission of a placed task is due at the start of its appointment. -/
theorem settle_assigned (htable : sim.Timetable)
    (hledger : sim.Ledger) {task : Task ℚ} {node : Node ℚ}
    (htask : sim.context.task? task.id = some task)
    (hpending : task.id ∈ sim.gateway.pending)
    (hnode : sim.context.topology.node? node.id = some node)
    {cost : Span ℚ} (hcost : 0 ≤ cost.value)
    (hmeets : sim.context.misses task node sim.queue.now cost = false)
    (strategy : Strategy ℚ) (score : ℚ) :
    (sim.settled
      (some ⟨.assigned task.id node.id
        (sim.context.network.transferDelay node.datacenter task.storage),
          cost⟩) strategy
      ((sim.context.bound task node sim.queue.now cost).measure
        (·.recordReward score))).Timetable := by
  obtain ⟨_, _, _, _, _, hplace, hopen⟩ :=
    hledger.pending_alone htask hpending
  have hbooked := Context.booked_bound task hnode sim.queue.now cost
  have hbound := htable.bind htask hplace hopen hnode hmeets
  set ctx := sim.context.bound task node sim.queue.now cost
  set transfer :=
    sim.context.network.transferDelay node.datacenter task.storage
  obtain ⟨target, htarget, _⟩ := hbooked.span
  have hdelay : 0 ≤ (cost + transfer).value :=
    add_nonneg hcost (htable.forward.transfer task.id task _ htask)
  have hagrees : ctx.Agrees ⟨sim.queue.delivery (sim.queue.now +
      (cost + transfer)), sim.queue.serial, .datacenter target.datacenter,
        .taskSubmit task.id node.id⟩ := by
    rw [EventQueue.delivery_add hdelay, Time.add_span_add]
    have hmarked := Context.bound_task? htask node sim.queue.now cost task.id
    rw [if_pos rfl] at hmarked
    exact ⟨_, _, hmarked, hbooked⟩
  have hrewarded :
      (ctx.measure (·.recordReward score)).topology.node? node.id =
        some target := htarget
  have hqueue := sim.settled_queue_of_assigned task.id transfer cost strategy
    hrewarded
  have hscheduled := (hbound.schedule (cost + transfer)
    (.datacenter target.datacenter) (.taskSubmit task.id node.id)
      hagrees).schedule cost .gateway .gatewayWake trivial
  apply hscheduled.quiet
  · rfl
  · rfl
  · intro id
    rfl
  · intro id hid
    exact List.mem_of_mem_filter hid
  · rw [settled_now]
    exact le_refl _
  · intro event hevent
    rw [hqueue] at hevent
    exact hevent

variable {σ : Type} {policy : Policy (StateM σ) ℚ}
  {decision : Option (Decision ℚ)} {strategy : Strategy ℚ} {ctx : Context ℚ}
  {before after : σ}

theorem consult (htable : sim.Timetable) (hbooks : sim.Books)
    (hconsults : sim.gateway.strategy.Consults policy sim.gateway.pending
      sim.context sim.queue.now before decision strategy ctx after)
    (hcost : ∀ taken, decision = some taken → 0 ≤ taken.cost.value) :
    (sim.settled decision strategy ctx).Timetable := by
  have hnoted : ∀ answer, ({ sim with
      context := sim.context.sampled sim.queue.now answer } :
        Simulation ℚ).Timetable := by
    intro answer
    apply htable.quiet
    · exact sim.context.releaseFinished_network sim.queue.now
    · rw [Context.sampled_topology]
    · intro id
      rw [Context.sampled_task?]
    · intro id hid
      exact hid
    · exact le_refl _
    · intro event hevent
      exact hevent
  cases hconsults with
  | silent hoffers =>
      apply htable.quiet
      · exact sim.context.releaseFinished_network sim.queue.now
      · rw [settled_context, Context.releaseFinished_topology]
      · intro id
        rw [settled_context, Context.releaseFinished_task?]
      · intro id hid
        exact hid
      · exact le_refl _
      · intro event hevent
        exact hevent
  | full hasked hfull =>
      exact (hnoted _).settle_unplaced (by simp) _ _ rfl rfl fun _ => rfl
  | crowded hasked hnames hbusy hnone =>
      exact (hnoted _).settle_unplaced (by simp) _ _ rfl rfl fun _ => rfl
  | rejected hasked hnames hbusy hidle =>
      exact (hnoted _).settle_unplaced (by simp) _ _ rfl rfl fun _ => rfl
  | @dropped answer _ _ _ _ task _ hasked hnames hidle hmissed hfeedback =>
      have hunplaced : ∀ id place (transfer : Span ℚ),
          Outcome.dropped task.id ≠ .assigned id place transfer := by simp
      exact (hnoted answer).settle_unplaced hunplaced _ _ rfl rfl fun _ => rfl
  | @assigned answer _ _ id place task node hasked hnames hidle hmeets
      hfeedback =>
      have hledger : ({ sim with
          context := sim.context.sampled sim.queue.now answer } :
            Simulation ℚ).Ledger :=
        hbooks.ledger.sweep sim.queue.now (fun _ => rfl) rfl rfl rfl
      have htask := hnames.task_eq
      have hid : task.id = id := hledger.numbered id task htask
      have hpending := hnames.mem_pending
      have hnode := hnames.node_eq
      have hown := (hnames.node_candidate hbooks.occupancy.numbered).1
      rw [← hid] at htask hpending
      rw [← hown] at hnode
      exact (hnoted answer).settle_assigned hledger htask hpending hnode
        (hcost _ rfl) hmeets _ _

end Timetable
end Simulation

/-! ## The first moment -/

/-- The tasks of a dataset neither take back work nor data. -/
structure Dataset.Physical (dataset : Dataset ℚ) : Prop where
  length : ∀ task ∈ dataset.tasks, 0 ≤ task.length
  storage : ∀ task ∈ dataset.tasks, 0 ≤ task.storage

/-- Data does not arrive before it is sent, and does not need forever. -/
structure Network.Physical (network : Network ℚ) : Prop where
  fogLatency : 0 ≤ network.fogLatency
  fogUpload : 0 < network.fogUpload
  cloudLatency : 0 ≤ network.cloudLatency
  cloudUpload : 0 < network.cloudUpload

theorem Network.Physical.transfer {network : Network ℚ}
    (hnetwork : network.Physical) (datacenter : DatacenterId) {size : ℚ}
    (hsize : 0 ≤ size) :
    0 ≤ (network.transferDelay datacenter size).value := by
  unfold transferDelay
  split
  next =>
    exact add_nonneg hnetwork.cloudLatency
      (div_nonneg hsize hnetwork.cloudUpload.le)
  next =>
    exact add_nonneg hnetwork.fogLatency
      (div_nonneg hsize hnetwork.fogUpload.le)

theorem Topology.Built.mips_pos {topology : Topology ℚ}
    (hbuilt : topology.Built) {place : NodeId} {node : Node ℚ}
    (hnode : topology.reset.node? place = some node) : 0 < node.mips := by
  obtain ⟨plan, hplan⟩ := hbuilt
  rw [(ofPlan_ok hplan).1] at hnode
  unfold Topology.node? ofPlanUnchecked at hnode
  simp only [List.getElem?_mapIdx, Option.map_eq_some_iff] at hnode
  obtain ⟨⟨datacenter, kind, spec⟩, hdevice, rfl⟩ := hnode
  have hsound := List.of_mem_filter (List.mem_of_getElem? hdevice)
  rw [NodeSpec.isSound, Bool.and_eq_true] at hsound
  have hmips : (0 : ℚ) < spec.mips := by
    simpa [Arith.less, Arith.zero, Arith.ofNat] using hsound.1
  exact hmips

theorem Episode.foldl_push_late (tasks : List (Task ℚ)) {queue : EventQueue ℚ}
    {event : Event ℚ}
    (hevent : event ∈ (tasks.foldl (fun queue task =>
        queue.push task.arrival .gateway (.taskArrival task.id))
      queue).future) :
    event ∈ queue.future ∨ ∃ task ∈ tasks,
      event.message = .taskArrival task.id ∧
        task.arrival.value ≤ event.time.value := by
  induction tasks generalizing queue with
  | nil => exact Or.inl hevent
  | cons task rest ih =>
      rcases ih hevent with hpushed | ⟨other, hother, hlate⟩
      · rcases EventQueue.mem_place.mp hpushed with rfl | hold
        · exact Or.inr ⟨task, List.mem_cons_self, rfl,
            EventQueue.delivery_le task.arrival⟩
        · exact Or.inl hold
      · exact Or.inr ⟨other, List.mem_cons_of_mem _ hother, hlate⟩

namespace Simulation

theorem start_timetable {gateway : Gateway ℚ} {ctx : Context ℚ}
    {dataset : Dataset ℚ} (hdataset : dataset.Fresh)
    (htopology : ctx.topology.Built) (hdemands : dataset.Physical)
    (hnetwork : ctx.network.Physical) (episode : Nat) :
    (Episode.initial gateway.reset
      (ctx.startEpisode episode dataset.jobs dataset.tasks)).Timetable := by
  constructor
  case forward =>
    constructor
    · intro id task datacenter htask
      have hmem : task ∈ dataset.tasks := List.mem_of_getElem? htask
      exact hnetwork.transfer datacenter (hdemands.storage task hmem)
    · intro id task place node htask hnode
      have hmem : task ∈ dataset.tasks := List.mem_of_getElem? htask
      exact div_nonneg (hdemands.length task hmem)
        (htopology.mips_pos hnode).le
  case due =>
    intro event hevent
    rcases Episode.foldl_push_late _ hevent with hnone | ⟨task, hmem, hmessage,
      hlate⟩
    · exact nomatch hnone
    · obtain ⟨time, serial, target, message⟩ := event
      obtain rfl : message = _ := hmessage
      intro other hother
      obtain ⟨index, hindex⟩ := List.mem_iff_getElem?.mp hmem
      have hid := hdataset.id_eq index task hindex
      have hrow : dataset.tasks[task.id.index]? = some other := hother
      rw [hid] at hrow
      obtain rfl : task = other := Option.some.inj (hindex.symm.trans hrow)
      exact hlate
  case arrived =>
    intro id hid
    exact nomatch hid
  case finished =>
    intro id task finish htask hnoted
    rw [(start_task? hdataset htask).2.finish] at hnoted
    cases hnoted
  case met =>
    intro id task place start done htask hbooked
    exact absurd (start_task? hdataset htask).2.node hbooked.placed

end Simulation

/-! ## The turns -/

/-- A decision that does not take back time. -/
def Turn.Physical (turn : Turn ℚ) : Prop :=
  ∀ decision, turn.decision? = some decision → 0 ≤ decision.cost.value

namespace Moment

variable {σ : Type} {policy : Policy (StateM σ) ℚ} {ending : EndCondition ℚ}
  {before after first last : Moment σ ℚ} {turn : Turn ℚ}
  {turns : List (Turn ℚ)}

theorem Step.timetable (hstep : before.Step policy ending turn after)
    (hbooks : before.sim.Books) (hordered : before.sim.queue.Ordered)
    (hphysical : turn.Physical) (htable : before.sim.Timetable) :
    after.sim.Timetable := by
  cases hstep with
  | quiet hnext hquiet => exact htable.hear hordered hnext
  | @consulted event popped sim decision strategy ctx service hnext hprompts
      hsim hdecide =>
      subst hsim
      apply (htable.hear hordered hnext).consult (hbooks.hear hnext)
        (Strategy.decide_ok hdecide)
      rintro taken rfl
      exact hphysical taken rfl

theorem Run.timetable (hrun : Run policy ending first turns last)
    (hbooks : first.sim.Books) (hpunctual : first.sim.Punctual)
    (hphysical : ∀ turn ∈ turns, turn.Physical)
    (htable : first.sim.Timetable) : last.sim.Timetable := by
  induction hrun with
  | done now => exact htable
  | turn hstep _ ih =>
      obtain ⟨hturn, hrest⟩ := List.forall_mem_cons.mp hphysical
      apply ih (hstep.books hbooks) (hstep.punctual hpunctual) hrest
      exact hstep.timetable hbooks hpunctual.ordered hturn htable

end Moment
end FogDispatch
