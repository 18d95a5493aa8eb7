import FogDispatch.Proofs.Hosting
import FogDispatch.Proofs.Run

/-!
# Where the tasks are

Every task of an episode stands in exactly one of five places: its arrival is
still to come, it waits at the gateway, it was given up, it runs, or it is
released.  A task that was placed and is not yet finished has exactly one event
under way, its submission or its completion.  The ledger states this by
counting, and every operation of an episode keeps it.
-/

namespace FogDispatch

variable {α : Type}

/-- Submissions go to a datacenter, everything else to the gateway. -/
def Event.Addressed (event : Event α) : Prop :=
  match event.message with
  | .taskSubmit _ _ => ∃ id, event.target = .datacenter id
  | _ => event.target = .gateway

/-- Scheduling a message to where it belongs keeps all events addressed. -/
theorem addressed_push [Arith α] {queue : EventQueue α} {target : Target}
    {message : Message} (hqueue : ∀ event ∈ queue.future, event.Addressed)
    (time : Time α) (hown : ∀ time serial,
      (⟨time, serial, target, message⟩ : Event α).Addressed) :
    ∀ event ∈ (queue.push time target message).future, event.Addressed := by
  intro event hevent
  rcases EventQueue.mem_place.mp hevent with rfl | hold
  · exact hown _ _
  · exact hqueue event hold

namespace Simulation

/-- How often a task stands in one of the five places. -/
def presence (sim : Simulation α) (id : TaskId) : Nat :=
  sim.queue.messages.count (.taskArrival id) + sim.gateway.pending.count id +
    sim.context.violated.count id + sim.context.running.count id +
    sim.context.released.count id

def underway (sim : Simulation α) (id : TaskId) (node : NodeId) : Nat :=
  sim.queue.messages.count (.taskSubmit id node) +
    sim.queue.messages.count (.taskFinished id node)

/-- The five places hold each task once, and the marks of a task tell which
place and which event it has. -/
structure Ledger (sim : Simulation α) : Prop where
  addressed : ∀ event ∈ sim.queue.future, event.Addressed
  numbered : ∀ id task, sim.context.task? id = some task → task.id = id
  once : ∀ id, sim.presence id =
    if (sim.context.task? id).isSome then 1 else 0
  placed : ∀ id task, sim.context.task? id = some task →
    sim.context.running.count id + sim.context.released.count id =
      if task.node.isSome then 1 else 0
  started : ∀ id task, sim.context.task? id = some task →
    task.start.isSome = task.node.isSome
  unplaced : ∀ id task, sim.context.task? id = some task →
    task.node = none → task.finish = none
  unreleased : ∀ id task, sim.context.task? id = some task →
    task.finish = none → sim.context.released.count id = 0
  flight : ∀ id node, sim.underway id node =
    if sim.context.hosts node id then 1 else 0

/-- A ledger is kept where the marks stay, every task stays in some place, no task
without a finish is released, and the same events are under way. -/
theorem Ledger.of_same {sim other : Simulation α} (hledger : sim.Ledger)
    (haddressed : ∀ event ∈ other.queue.future, event.Addressed)
    (htask : ∀ id, other.context.task? id = sim.context.task? id)
    (hpresence : ∀ id, other.presence id = sim.presence id)
    (hrunning : ∀ id, other.context.running.count id +
      other.context.released.count id =
        sim.context.running.count id + sim.context.released.count id)
    (hreleased : ∀ id task, sim.context.task? id = some task →
      task.finish = none →
      other.context.released.count id = sim.context.released.count id)
    (hflight : ∀ id node, other.underway id node = sim.underway id node) :
    other.Ledger := by
  have hhosts : ∀ node id,
      other.context.hosts node id = sim.context.hosts node id := by
    intro node id
    simp only [Context.hosts, htask]
  constructor
  case addressed => exact haddressed
  case numbered =>
    intro id task
    rw [htask]
    exact hledger.numbered id task
  case once =>
    intro id
    rw [htask, hpresence]
    exact hledger.once id
  case placed =>
    intro id task
    rw [htask, hrunning]
    exact hledger.placed id task
  case started =>
    intro id task
    rw [htask]
    exact hledger.started id task
  case unplaced =>
    intro id task
    rw [htask]
    exact hledger.unplaced id task
  case unreleased =>
    intro id task hid hfinish
    rw [htask] at hid
    rw [hreleased id task hid hfinish]
    exact hledger.unreleased id task hid hfinish
  case flight =>
    intro id node
    rw [hflight, hhosts]
    exact hledger.flight id node

theorem Ledger.task_of_presence {sim : Simulation α} (hledger : sim.Ledger)
    {id : TaskId} (hpresent : 0 < sim.presence id) :
    ∃ task, sim.context.task? id = some task := by
  have honce := hledger.once id
  split at honce
  next hknown => exact Option.isSome_iff_exists.mp hknown
  next => omega

/-- A task that waits at the gateway is in no other place and has no mark. -/
theorem Ledger.pending_alone {sim : Simulation α} (hledger : sim.Ledger)
    {id : TaskId} {task : Task α}
    (htask : sim.context.task? id = some task)
    (hpending : id ∈ sim.gateway.pending) :
    sim.queue.messages.count (.taskArrival id) = 0 ∧
      sim.gateway.pending.count id = 1 ∧
      sim.context.violated.count id = 0 ∧
      sim.context.running.count id = 0 ∧
      sim.context.released.count id = 0 ∧
      task.node = none ∧ task.finish = none := by
  have honce := hledger.once id
  have hcount : 0 < sim.gateway.pending.count id :=
    List.count_pos_iff.mpr hpending
  rw [htask, Option.isSome_some, if_pos rfl, presence] at honce
  have hplaced := hledger.placed id task htask
  have hnode : task.node = none := by
    cases hnode : task.node with
    | none => rfl
    | some node =>
        rw [hnode, Option.isSome_some, if_pos rfl] at hplaced
        omega
  have hfinish := hledger.unplaced id task htask hnode
  refine ⟨?_, ?_, ?_, ?_, ?_, hnode, hfinish⟩ <;> omega

theorem count_filter_ne (ids : List TaskId) (id other : TaskId) :
    (ids.filter (· != id)).count other =
      if id = other then 0 else ids.count other := by
  by_cases heq : id = other
  · subst other
    simp [List.count_eq_zero]
  · rw [if_neg heq, List.count_filter]
    simpa using fun h => heq h.symm

/-- A task that leaves the waiting ones for another list is counted as before. -/
theorem count_moved {waiting : List TaskId} {id : TaskId}
    (hwaits : waiting.count id = 1) (place : List TaskId) (other : TaskId) :
    (waiting.filter (· != id)).count other + (place ++ [id]).count other =
      waiting.count other + place.count other := by
  rw [count_filter_ne, List.count_append, List.count_singleton]
  by_cases heq : id = other
  · subst heq
    simp only [if_true, beq_self_eq_true]
    omega
  · simp only [heq, if_false, beq_iff_eq]
    omega

/-! ## Messages -/

section

variable [Arith α] {sim popped : Simulation α} {ending : EndCondition α}
  {event : Event α}

theorem Ledger.hosts_of_flight {id : TaskId} {node : NodeId}
    (hledger : sim.Ledger) (hnext : sim.next? ending = some (event, popped))
    (hmessage : event.message = .taskSubmit id node ∨
      event.message = .taskFinished id node) :
    sim.context.hosts node id = true := by
  have hflight := hledger.flight id node
  by_contra hnot
  rw [if_neg hnot, underway, count_next hnext, count_next hnext] at hflight
  rcases hmessage with hmessage | hmessage <;>
    simp [hmessage] at hflight

theorem Ledger.addressed_next (hledger : sim.Ledger)
    (hnext : sim.next? ending = some (event, popped)) :
    event.Addressed ∧ ∀ other ∈ popped.queue.future, other.Addressed :=
  ⟨hledger.addressed event ((mem_future_next hnext).mpr (Or.inl rfl)),
    fun other hother =>
      hledger.addressed other ((mem_future_next hnext).mpr (Or.inr hother))⟩

theorem Ledger.hear_idle {other : Simulation α} (hledger : sim.Ledger)
    (hnext : sim.next? ending = some (event, popped))
    (hmessage : event.message = .gatewayWake ∨ event.message = .decisionDue)
    (hqueue : other.queue = popped.queue)
    (hcontext : other.context = popped.context)
    (hpending : other.gateway.pending = popped.gateway.pending) :
    other.Ledger := by
  obtain ⟨hgateway, hpopped, _⟩ := next?_eq_some hnext
  have hsame : ∀ message, message ≠ Message.gatewayWake →
      message ≠ Message.decisionDue →
      other.queue.messages.count message =
        sim.queue.messages.count message := by
    intro message hwake hdue
    rw [count_next hnext, hqueue, if_neg, Nat.add_zero]
    rcases hmessage with hmessage | hmessage <;> rw [hmessage]
    · exact fun h => hwake h.symm
    · exact fun h => hdue h.symm
  apply hledger.of_same
  case haddressed =>
    rw [hqueue]
    exact (hledger.addressed_next hnext).2
  case hpresence =>
    intro id
    rw [presence, presence, hsame _ (by simp) (by simp), hpending, hgateway,
      hcontext, hpopped]
  case hflight =>
    intro id node
    rw [underway, underway, hsame _ (by simp) (by simp),
      hsame _ (by simp) (by simp)]
  case htask | hrunning | hreleased => simp [hcontext, hpopped]

theorem Ledger.hear_arrival {id : TaskId} (hledger : sim.Ledger)
    (hnext : sim.next? ending = some (event, popped))
    (hmessage : event.message = .taskArrival id) :
    (popped.modifyGateway fun g =>
      { g with pending := g.pending ++ [id] }).Ledger := by
  obtain ⟨hgateway, hpopped, _⟩ := next?_eq_some hnext
  have hcount := count_next hnext
  apply hledger.of_same
  case haddressed => exact (hledger.addressed_next hnext).2
  case hpresence =>
    intro other
    have harrival := hcount (.taskArrival other)
    simp only [hmessage, Message.taskArrival.injEq] at harrival
    simp only [presence, modifyGateway, hgateway, hpopped, List.count_append,
      List.count_singleton, beq_iff_eq]
    omega
  case hflight =>
    intro other node
    simp [underway, modifyGateway, hcount, hmessage]
  case htask | hrunning | hreleased => simp [modifyGateway, hpopped]

theorem Ledger.hear_submission {id : TaskId} {node : NodeId}
    (hledger : sim.Ledger) (hoccupancy : sim.context.Occupancy)
    (hnext : sim.next? ending = some (event, popped))
    (hmessage : event.message = .taskSubmit id node) :
    (popped.runOnDatacenter (.taskSubmit id node)).Ledger := by
  obtain ⟨hgateway, hpopped, _⟩ := next?_eq_some hnext
  have hhosts := hledger.hosts_of_flight hnext (Or.inl hmessage)
  obtain ⟨task, htask, _, _⟩ := Context.hosts_iff.mp hhosts
  obtain ⟨target, htarget, _⟩ := hoccupancy.candidate node id hhosts
  have hcount := count_next hnext
  simp only [runOnDatacenter, hpopped, htask, htarget]
  apply hledger.of_same
  case haddressed =>
    exact addressed_push (hledger.addressed_next hnext).2 _ fun _ _ => rfl
  case hpresence =>
    intro other
    simp [presence, hgateway, hcount, hmessage]
  case hflight =>
    intro other place
    simp only [underway, EventQueue.count_schedule, hcount, hmessage,
      Message.taskSubmit.injEq, Message.taskFinished.injEq, reduceCtorEq,
      if_false]
    omega
  case htask | hrunning => exact fun _ => rfl
  case hreleased => exact fun _ _ _ _ => rfl

theorem onFinished_context (sim : Simulation α) (id : TaskId)
    (node : NodeId) :
    (sim.onFinished id node).context =
      sim.context.finished id node sim.queue.now := by
  unfold onFinished
  cases sim.gateway.state <;> rfl

theorem onFinished_pending (sim : Simulation α) (id : TaskId)
    (node : NodeId) :
    (sim.onFinished id node).gateway.pending = sim.gateway.pending := by
  unfold onFinished
  cases sim.gateway.state <;> rfl

theorem onFinished_count (sim : Simulation α) (id : TaskId) (node : NodeId)
    {message : Message} (hmessage : message ≠ .decisionDue) :
    (sim.onFinished id node).queue.messages.count message =
      sim.queue.messages.count message := by
  unfold onFinished
  cases sim.gateway.state with
  | idle =>
      simp only [EventQueue.count_schedule]
      rw [if_neg hmessage.symm, Nat.add_zero]
  | deciding => rfl

theorem onFinished_addressed {sim : Simulation α} (id : TaskId)
    (node : NodeId) (haddressed : ∀ event ∈ sim.queue.future, event.Addressed) :
    ∀ event ∈ (sim.onFinished id node).queue.future, event.Addressed := by
  unfold onFinished
  cases sim.gateway.state with
  | idle => exact addressed_push haddressed _ fun _ _ => rfl
  | deciding => exact haddressed

theorem onFinished_underway (sim : Simulation α) (id other : TaskId)
    (node place : NodeId) :
    (sim.onFinished id node).underway other place =
      sim.underway other place := by
  rw [underway, onFinished_count _ _ _ (by simp),
    onFinished_count _ _ _ (by simp), underway]

/-- A completion leaves every task in its place. -/
theorem presence_completed {id : TaskId} {node : NodeId}
    (hnext : sim.next? ending = some (event, popped))
    (hmessage : event.message = .taskFinished id node) (other : TaskId) :
    (popped.onFinished id node).presence other = sim.presence other := by
  obtain ⟨hgateway, hpopped, _⟩ := next?_eq_some hnext
  have harrival := count_next hnext (.taskArrival other)
  rw [hmessage, if_neg (by simp), Nat.add_zero] at harrival
  rw [presence, presence, onFinished_count _ _ _ (by simp), onFinished_pending,
    onFinished_context, hgateway, hpopped, harrival]
  rfl

/-- A completion is one event less under way for its task and node. -/
theorem underway_completed {id : TaskId} {node : NodeId}
    (hnext : sim.next? ending = some (event, popped))
    (hmessage : event.message = .taskFinished id node) (other : TaskId)
    (place : NodeId) :
    (popped.onFinished id node).underway other place +
        (if id = other ∧ node = place then 1 else 0) =
      sim.underway other place := by
  rw [onFinished_underway, underway, underway, count_next hnext,
    count_next hnext, hmessage]
  simp only [Message.taskFinished.injEq, reduceCtorEq, if_false]
  omega

theorem Ledger.hear_completion {id : TaskId} {node : NodeId}
    (hledger : sim.Ledger) (hnext : sim.next? ending = some (event, popped))
    (hmessage : event.message = .taskFinished id node) :
    (popped.onFinished id node).Ledger := by
  obtain ⟨_, hpopped, _⟩ := next?_eq_some hnext
  have hhosts := hledger.hosts_of_flight hnext (Or.inr hmessage)
  have hcontext := popped.onFinished_context id node
  rw [hpopped] at hcontext
  constructor
  case addressed =>
    exact onFinished_addressed id node (hledger.addressed_next hnext).2
  case numbered =>
    intro other task htask
    rw [hcontext] at htask
    obtain ⟨before, hbefore, hid, _⟩ :=
      Context.before_finished hhosts htask
    exact hid.trans (hledger.numbered other before hbefore)
  case once =>
    intro other
    rw [presence_completed hnext hmessage, hcontext,
      Context.isSome_finished_task?]
    exact hledger.once other
  case placed =>
    intro other task htask
    rw [hcontext] at htask
    obtain ⟨before, hbefore, _, hnode, _⟩ :=
      Context.before_finished hhosts htask
    rw [hcontext, hnode]
    exact hledger.placed other before hbefore
  case started =>
    intro other task htask
    rw [hcontext] at htask
    obtain ⟨before, hbefore, _, hnode, hstart, _⟩ :=
      Context.before_finished hhosts htask
    rw [hnode, hstart]
    exact hledger.started other before hbefore
  case unplaced =>
    intro other task htask hnone
    rw [hcontext] at htask
    obtain ⟨before, hbefore, _, hnode, _, hsame⟩ :=
      Context.before_finished hhosts htask
    rw [hnode] at hnone
    rw [hsame (Or.inr hnone)]
    exact hledger.unplaced other before hbefore hnone
  case unreleased =>
    intro other task htask hnone
    rw [hcontext] at htask
    obtain ⟨before, hbefore, _, _, _, hsame⟩ :=
      Context.before_finished hhosts htask
    obtain rfl := hsame (Or.inl hnone)
    rw [hcontext]
    exact hledger.unreleased other _ hbefore hnone
  case flight =>
    intro other place
    have hflight := hledger.flight other place
    have hunder := underway_completed hnext hmessage other place
    have hleft := Context.finished_hosts_add hhosts popped.queue.now place other
    rw [hcontext]
    omega

theorem Ledger.hear (hledger : sim.Ledger)
    (hoccupancy : sim.context.Occupancy)
    (hnext : sim.next? ending = some (event, popped)) :
    (popped.heard event.target event.message).Ledger := by
  obtain ⟨haddressed, _⟩ := hledger.addressed_next hnext
  unfold Event.Addressed at haddressed
  cases hmessage : event.message with
  | taskArrival id =>
      rw [hmessage] at haddressed
      rw [haddressed]
      exact hledger.hear_arrival hnext hmessage
  | gatewayWake =>
      rw [hmessage] at haddressed
      rw [haddressed]
      exact hledger.hear_idle hnext (Or.inl hmessage) rfl rfl rfl
  | decisionDue =>
      rw [hmessage] at haddressed
      rw [haddressed]
      simp only [heard]
      split <;> exact hledger.hear_idle hnext (Or.inr hmessage) rfl rfl rfl
  | taskSubmit id node =>
      rw [hmessage] at haddressed
      obtain ⟨datacenter, htarget⟩ := haddressed
      rw [htarget]
      exact hledger.hear_submission hoccupancy hnext hmessage
  | taskFinished id node =>
      rw [hmessage] at haddressed
      rw [haddressed]
      exact hledger.hear_completion hnext hmessage

end

/-! ## Consultations -/

section

variable [Arith α] {sim : Simulation α}

/-- The sweep takes finished tasks from the running list to the released
ones. -/
theorem Ledger.sweep (hledger : sim.Ledger) (now : Time α)
    {ctx : Context α}
    (htasks : ∀ id, ctx.task? id = (sim.context.releaseFinished now).task? id)
    (hrunning : ctx.running = (sim.context.releaseFinished now).running)
    (hviolated : ctx.violated = (sim.context.releaseFinished now).violated)
    (hreleased : ctx.released = (sim.context.releaseFinished now).released) :
    ({ sim with context := ctx } : Simulation α).Ledger := by
  have hmoved : ∀ id, ctx.running.count id + ctx.released.count id =
      sim.context.running.count id + sim.context.released.count id := by
    intro id
    rw [hrunning, hreleased]
    exact Context.count_placed_releaseFinished now hledger.numbered id
  apply hledger.of_same
  case haddressed => exact hledger.addressed
  case htask =>
    intro id
    rw [htasks, Context.releaseFinished_task?]
  case hpresence =>
    intro id
    have hmove := hmoved id
    simp only [presence]
    rw [hviolated, Context.releaseFinished_violated]
    omega
  case hrunning => exact hmoved
  case hreleased =>
    intro id task hid hfinish
    rw [hreleased]
    exact Context.count_released_of_unfinished now hledger.numbered hid hfinish
  case hflight => exact fun _ _ => rfl

theorem Ledger.settle_kept (hledger : sim.Ledger) {outcome : Outcome α}
    {cost : Span α} (hkept : (⟨outcome, cost⟩ : Decision α).task? = none)
    (strategy : Strategy α) :
    (sim.settled (some ⟨outcome, cost⟩) strategy sim.context).Ledger := by
  have hqueue : (sim.settled (some ⟨outcome, cost⟩) strategy
      sim.context).queue = sim.queue.schedule cost .gateway .gatewayWake := by
    apply settled_queue_of_unplaced
    rintro task node transfer rfl
    cases hkept
  have hpending : (sim.settled (some ⟨outcome, cost⟩) strategy
      sim.context).gateway.pending = sim.gateway.pending := by
    simp only [settled, enact, hkept]
  apply hledger.of_same
  case haddressed =>
    rw [hqueue]
    exact addressed_push hledger.addressed _ fun _ _ => rfl
  case hpresence =>
    intro id
    simp only [presence, hqueue, hpending, settled_context,
      EventQueue.count_schedule, reduceCtorEq, if_false, Nat.add_zero]
  case hflight =>
    intro id node
    simp only [underway, hqueue, EventQueue.count_schedule, reduceCtorEq,
      if_false, Nat.add_zero]
  case htask | hrunning => exact fun _ => rfl
  case hreleased => exact fun _ _ _ _ => rfl

/-- A task that is given up goes from the queue of the gateway to the violated ones. -/
theorem presence_dropped {ctx : Context α} {id : TaskId}
    (hwaits : sim.gateway.pending.count id = 1)
    (hviolated : ctx.violated = sim.context.violated ++ [id])
    (hrunning : ctx.running = sim.context.running)
    (hreleased : ctx.released = sim.context.released) (cost : Span α)
    (strategy : Strategy α) (other : TaskId) :
    (sim.settled (some ⟨.dropped id, cost⟩) strategy ctx).presence other =
      sim.presence other := by
  have hqueue : (sim.settled (some ⟨.dropped id, cost⟩) strategy ctx).queue =
      sim.queue.schedule cost .gateway .gatewayWake := rfl
  have hpending : (sim.settled (some ⟨.dropped id, cost⟩) strategy
      ctx).gateway.pending = sim.gateway.pending.filter (· != id) := rfl
  have hmoved := count_moved hwaits sim.context.violated other
  rw [presence, presence, hqueue, hpending, settled_context, hviolated,
    hrunning, hreleased, EventQueue.count_schedule, if_neg (by simp)]
  omega

theorem Ledger.settle_dropped (hledger : sim.Ledger) {task : Task α}
    (htask : sim.context.task? task.id = some task)
    (hpending : task.id ∈ sim.gateway.pending) (cost : Span α)
    (strategy : Strategy α) (score : α) :
    (sim.settled (some ⟨.dropped task.id, cost⟩) strategy
      ((sim.context.givenUp task).measure (·.recordReward score))).Ledger := by
  obtain ⟨_, hwaits, _⟩ := hledger.pending_alone htask hpending
  apply hledger.of_same
  case haddressed =>
    exact addressed_push hledger.addressed _ fun _ _ => rfl
  case hpresence =>
    refine presence_dropped hwaits ?_ ?_ ?_ cost strategy <;> rfl
  case hflight =>
    intro id node
    change (sim.queue.schedule cost .gateway .gatewayWake).messages.count _ +
      (sim.queue.schedule cost .gateway .gatewayWake).messages.count _ = _
    simp only [underway, EventQueue.count_schedule, reduceCtorEq, if_false,
      Nat.add_zero]
  case htask | hrunning => exact fun _ => rfl
  case hreleased => exact fun _ _ _ _ => rfl

section

variable {ctx : Context α} {id : TaskId} {place : NodeId} {target : Node α}
  (htarget : ctx.topology.node? place = some target)

include htarget

/-- A placed task goes from the queue of the gateway to the running list. -/
theorem presence_assigned (hwaits : sim.gateway.pending.count id = 1)
    (hrunning : ctx.running = sim.context.running ++ [id])
    (hviolated : ctx.violated = sim.context.violated)
    (hreleased : ctx.released = sim.context.released) (transfer cost : Span α)
    (strategy : Strategy α) (other : TaskId) :
    (sim.settled (some ⟨.assigned id place transfer, cost⟩) strategy
      ctx).presence other = sim.presence other := by
  have hpending : (sim.settled (some ⟨.assigned id place transfer, cost⟩)
      strategy ctx).gateway.pending = sim.gateway.pending.filter (· != id) := rfl
  have hmoved := count_moved hwaits sim.context.running other
  rw [presence, presence, sim.settled_queue_of_assigned id transfer cost
    strategy htarget, hpending, settled_context, hrunning, hviolated, hreleased,
    EventQueue.count_schedule, EventQueue.count_schedule, if_neg (by simp),
    if_neg (by simp)]
  omega

/-- The submission of a placed task is under way to its node. -/
theorem underway_assigned (transfer cost : Span α) (strategy : Strategy α)
    (other : TaskId) (node : NodeId) :
    (sim.settled (some ⟨.assigned id place transfer, cost⟩) strategy
      ctx).underway other node =
        sim.underway other node + if id = other ∧ place = node then 1 else 0 := by
  rw [underway, underway, sim.settled_queue_of_assigned id transfer cost strategy
    htarget]
  simp only [EventQueue.count_schedule, reduceCtorEq, if_false, Nat.add_zero,
    Message.taskSubmit.injEq]
  omega

end

/-- A placed task goes from the queue of the gateway to the running list, with
its submission under way. -/
theorem Ledger.settle_assigned (hledger : sim.Ledger) {task : Task α}
    {node : Node α} (htask : sim.context.task? task.id = some task)
    (hpending : task.id ∈ sim.gateway.pending)
    (hnode : sim.context.topology.node? node.id = some node)
    (now : Time α) (transfer cost : Span α) (strategy : Strategy α)
    (score : α) :
    (sim.settled (some ⟨.assigned task.id node.id transfer, cost⟩) strategy
      ((sim.context.bound task node now cost).measure
        (·.recordReward score))).Ledger := by
  obtain ⟨_, hwaits, _, hrunning, hreleased, hplace, hopen⟩ :=
    hledger.pending_alone htask hpending
  obtain ⟨target, htarget⟩ : ∃ target,
      ((sim.context.bound task node now cost).measure
        (·.recordReward score)).topology.node? node.id = some target := by
    refine ⟨node.markBusy, ?_⟩
    have hbound := sim.context.bound_node? task node now cost node.id
    rw [if_pos rfl, hnode, Option.map_some] at hbound
    exact hbound
  have hmarked : ∀ {id other}, (sim.settled
      (some ⟨.assigned task.id node.id transfer, cost⟩) strategy
      ((sim.context.bound task node now cost).measure
        (·.recordReward score))).context.task? id = some other → _ :=
    fun hother => Context.bound_task?_cases htask hother
  constructor
  case addressed =>
    rw [sim.settled_queue_of_assigned task.id transfer cost strategy htarget]
    have hsubmitted : ∀ event ∈ (sim.queue.schedule (cost + transfer)
        (.datacenter target.datacenter)
        (.taskSubmit task.id node.id)).future, event.Addressed :=
      addressed_push hledger.addressed _ fun _ _ => ⟨_, rfl⟩
    exact addressed_push hsubmitted _ fun _ _ => rfl
  case numbered =>
    intro id other hother
    rcases hmarked hother with ⟨heq, rfl⟩ | ⟨_, hold⟩
    · exact heq
    · exact hledger.numbered id other hold
  case once =>
    intro id
    have hknown := Context.isSome_bound_task? htask node now cost id
    rw [presence_assigned htarget hwaits rfl rfl rfl, hledger.once id,
      settled_context, ← hknown]
    rfl
  case placed =>
    intro id other hother
    have hplaced : (sim.context.bound task node now cost).running.count id +
        sim.context.released.count id =
          if other.node.isSome then 1 else 0 := by
      rw [Context.count_running_bound]
      rcases hmarked hother with ⟨rfl, rfl⟩ | ⟨hne, hold⟩
      · simp only [if_true, Option.isSome_some]
        omega
      · rw [if_neg hne]
        exact hledger.placed id other hold
    exact hplaced
  case started =>
    intro id other hother
    rcases hmarked hother with ⟨_, rfl⟩ | ⟨_, hold⟩
    · rfl
    · exact hledger.started id other hold
  case unplaced =>
    intro id other hother hnone
    rcases hmarked hother with ⟨_, rfl⟩ | ⟨_, hold⟩
    · cases hnone
    · exact hledger.unplaced id other hold hnone
  case unreleased =>
    intro id other hother hunfinished
    rcases hmarked hother with ⟨rfl, _⟩ | ⟨_, hold⟩
    · exact hreleased
    · exact hledger.unreleased id other hold hunfinished
  case flight =>
    intro id place
    rw [underway_assigned htarget, hledger.flight id place]
    exact (Context.bound_hosts_add htask hplace hopen node now cost place id).symm

theorem Ledger.consult {σ : Type} {policy : Policy (StateM σ) α}
    {decision : Option (Decision α)} {strategy : Strategy α}
    {ctx : Context α} {before after : σ} (hledger : sim.Ledger)
    (hnumbered : ∀ id node, sim.context.topology.node? id = some node →
      node.id = id)
    (hconsults : sim.gateway.strategy.Consults policy sim.gateway.pending
      sim.context sim.queue.now before decision strategy ctx after) :
    (sim.settled decision strategy ctx).Ledger := by
  have hnoted : ∀ answer, ({ sim with
      context := sim.context.sampled sim.queue.now answer } :
        Simulation α).Ledger := by
    intro answer
    exact hledger.sweep sim.queue.now (fun _ => rfl) rfl rfl rfl
  cases hconsults with
  | silent hoffers =>
      have hswept : ({ sim with
          context := sim.context.releaseFinished sim.queue.now } :
            Simulation α).Ledger :=
        hledger.sweep sim.queue.now (fun _ => rfl) rfl rfl rfl
      exact hswept.of_same hswept.addressed (fun _ => rfl) (fun _ => rfl)
        (fun _ => rfl) (fun _ _ _ _ => rfl) fun _ _ => rfl
  | full hasked hfull => exact (hnoted _).settle_kept rfl _
  | crowded hasked hnames hbusy hnone => exact (hnoted _).settle_kept rfl _
  | rejected hasked hnames hbusy hidle => exact (hnoted _).settle_kept rfl _
  | @dropped answer _ _ id place task node hasked hnames hidle hmissed
      hfeedback =>
      have htask := hnames.task_eq
      have hid : task.id = id := (hnoted answer).numbered id task htask
      have hpending := hnames.mem_pending
      rw [← hid] at htask hpending
      exact (hnoted answer).settle_dropped htask hpending _ _ _
  | @assigned answer _ _ id place task node hasked hnames hidle hmeets
      hfeedback =>
      have htask := hnames.task_eq
      have hid : task.id = id := (hnoted answer).numbered id task htask
      have hpending := hnames.mem_pending
      have hnode := hnames.node_eq
      have hown := (hnames.node_candidate hnumbered).1
      rw [← hid] at htask hpending
      rw [← hown] at hnode
      exact (hnoted answer).settle_assigned htask hpending hnode _ _ _ _ _

end

end Simulation
end FogDispatch
