import FogDispatch.Proofs.Attention
import FogDispatch.Proofs.Deadlines

/-!
# Noted starts and real starts

A placement computes the start of its task twice.  The decision adds the time of
the decision and then the transfer to the clock, judges the deadline by the sum
and notes it.  The gateway adds both delays first and lets the queue add them to
the clock, and the queue delivers nothing in the past.  This is one and the same
time on exact clocks without negative delays.  Rounding tells the two sums
apart, and a service that takes back time gets a start that has passed already.
-/

namespace FogDispatch

variable {α σ : Type}

/-- No submission is to come of a task without a node. -/
theorem Simulation.Ledger.not_submitted {sim : Simulation α}
    (hledger : sim.Ledger) {id : TaskId} {task : Task α}
    (htask : sim.context.task? id = some task)
    (hunplaced : task.node = none) {event : Event α}
    (hevent : event ∈ sim.queue.future) (place : NodeId) :
    event.message ≠ .taskSubmit id place := by
  intro hmessage
  have hfree : sim.context.hosts place id = false := by
    by_contra hhosts
    obtain ⟨hosted, hhosted, hnode, _⟩ :=
      Context.hosts_iff.mp (by simpa using hhosts)
    obtain rfl : task = hosted := Option.some.inj (htask.symm.trans hhosted)
    rw [hunplaced] at hnode
    cases hnode
  have hsent : 0 < sim.queue.messages.count (.taskSubmit id place) :=
    List.count_pos_iff.mpr (List.mem_map.mpr ⟨event, hevent, hmessage⟩)
  have hflight := hledger.flight id place
  rw [hfree, underway] at hflight
  simp only [Bool.false_eq_true, if_false] at hflight
  omega

variable [Arith α]

namespace Time

/-- When a message is delivered that is sent off now: not in the past. -/
def dueIn (now : Time α) (delay : Span α) : Time α :=
  if (now + delay).isBefore now then now else now + delay

/-- On exact clocks the two ways to add up a start differ for negative delays
only. -/
theorem dueIn_eq_iff {now : Time ℚ} {cost transfer : Span ℚ} :
    now.dueIn (cost + transfer) = now + cost + transfer ↔
      0 ≤ (cost + transfer).value := by
  rw [← add_span_add]
  constructor
  · intro hsame
    have hahead : now.value ≤ (now.dueIn (cost + transfer)).value := by
      unfold dueIn
      split
      next => exact le_refl _
      next hnot =>
        exact isBy_iff_le.mp (isBy_of_not_isBefore (by simpa using hnot))
    rw [hsame, value_add] at hahead
    linarith
  · intro hdelay
    have hdue : (EventQueue.mk now 0 [] 0).delivery
        (now + (cost + transfer)) = now + (cost + transfer) :=
      EventQueue.delivery_add hdelay
    exact hdue

end Time

/-! ## Where submissions come from -/

namespace Simulation

variable {sim : Simulation α} {event : Event α}

/-- No message makes the gateway or a datacenter submit a task. -/
theorem mem_future_heard {heard : Simulation α} {message : Message}
    {prompted : Bool} (hears : sim.Hears message heard prompted)
    (hevent : event ∈ heard.queue.future) {id : TaskId} {place : NodeId}
    (hmessage : event.message = .taskSubmit id place) :
    event ∈ sim.queue.future := by
  have hother : ∀ delay target message, message ≠ .taskSubmit id place →
      event ∈ (sim.queue.schedule delay target message).future →
        event ∈ sim.queue.future := by
    intro delay target message hne hmem
    rcases EventQueue.mem_place.mp hmem with rfl | hold
    · exact (hne hmessage).elim
    · exact hold
  cases hears with
  | submission => exact hother _ _ _ (by simp) hevent
  | completion => exact hother _ _ _ (by simp) hevent
  | _ => exact hevent

/-- A submission that a decision adds is the one of the task it places. -/
theorem mem_future_settled {decision : Option (Decision α)}
    {strategy : Strategy α} {ctx : Context α}
    (hevent : event ∈ (sim.settled decision strategy ctx).queue.future)
    {id : TaskId} {place : NodeId}
    (hmessage : event.message = .taskSubmit id place) :
    event ∈ sim.queue.future ∨ ∃ transfer cost target,
      decision = some ⟨.assigned id place transfer, cost⟩ ∧
      ctx.topology.node? place = some target ∧
      event.target = .datacenter target.datacenter ∧
      event.time = sim.queue.now.dueIn (cost + transfer) := by
  have hwake : ∀ (queue : EventQueue α) delay,
      event ∈ (queue.schedule delay .gateway .gatewayWake).future →
        event ∈ queue.future := by
    intro queue delay hmem
    rcases EventQueue.mem_place.mp hmem with rfl | hold
    · cases hmessage
    · exact hold
  rcases decision with _ | ⟨outcome, cost⟩
  · exact Or.inl hevent
  have hsent := hwake _ cost hevent
  cases outcome with
  | assigned other node transfer =>
      simp only [dispatch] at hsent
      split at hsent
      next target htarget =>
        rcases EventQueue.mem_place.mp hsent with rfl | hold
        · cases hmessage
          exact Or.inr ⟨transfer, cost, target, rfl, htarget, rfl, rfl⟩
        · exact Or.inl hold
      next => exact Or.inl hsent
  | dropped => exact Or.inl hsent
  | rejected => exact Or.inl hsent
  | noCapacity => exact Or.inl hsent

/-- A task is placed, and what submissions of it are to come go to its node, at
one time. -/
structure Ships (sim : Simulation α) (id : TaskId) (place : NodeId)
    (target : Target) (time : Time α) : Prop where
  placed : ∃ row, sim.context.task? id = some row ∧ row.node = some place
  due : ∀ event ∈ sim.queue.future, ∀ other,
    event.message = .taskSubmit id other →
      other = place ∧ event.target = target ∧ event.time = time

end Simulation

/-- A placement judges the deadline by the appointment that it makes. -/
theorem Simulation.Books.judged {sim : Simulation α}
    {policy : Policy (StateM σ) α} {strategy : Strategy α} {ctx : Context α}
    {before after : σ} {id : TaskId} {place : NodeId} {transfer cost : Span α}
    (hbooks : sim.Books)
    (hconsults : sim.gateway.strategy.Consults policy sim.gateway.pending
      sim.context sim.queue.now before
        (some ⟨.assigned id place transfer, cost⟩) strategy ctx after)
    {row : Task α} {start done : Time α} (hrow : ctx.task? id = some row)
    (hbooked : ctx.Booked row place start done) :
    done.isAfter row.deadline = false := by
  cases hconsults with
  | @assigned answer _ _ other _ task node hasked hnames hidle hmeets
      hfeedback =>
      have htask : sim.context.task? other = some task := by
        simpa using hnames.task_eq
      obtain rfl := hbooks.ledger.numbered other task htask
      have hnode := hnames.node_eq
      rw [← (hnames.node_candidate hbooks.occupancy.numbered).1] at hnode
      have hown := Context.booked_bound task hnode sim.queue.now answer.cost
      have hmarked := Context.bound_task? hnames.task_eq node sim.queue.now
        answer.cost task.id
      rw [if_pos rfl] at hmarked
      obtain rfl := Option.some.inj (hrow.symm.trans hmarked)
      obtain ⟨_, _, rfl⟩ := hown.unique (hbooked.of_same rfl rfl)
      exact hmeets

/-! ## From a placement to the end of a run -/

namespace Moment

variable {policy : Policy (StateM σ) α} {ending : EndCondition α}
  {before after first last : Moment σ α} {turn : Turn α}
  {turns : List (Turn α)} {id : TaskId} {place : NodeId}
  {transfer cost : Span α}

/-- A submission was to come before the turn, or the turn places its task. -/
theorem Step.submission (hstep : before.Step policy ending turn after)
    (hbooks : before.sim.Books) {event : Event α}
    (hevent : event ∈ after.sim.queue.future)
    (hmessage : event.message = .taskSubmit id place) :
    event ∈ before.sim.queue.future ∨ ∃ transfer cost target,
      turn.decision? = some ⟨.assigned id place transfer, cost⟩ ∧
      after.sim.context.topology.node? place = some target ∧
      event.target = .datacenter target.datacenter ∧
      event.time = turn.event.time.dueIn (cost + transfer) := by
  have hheard : ∀ event' popped,
      before.sim.next? ending = some (event', popped) →
        event ∈ (popped.heard event'.target event'.message).queue.future →
          event ∈ before.sim.queue.future := by
    intro event' popped hnext hmem
    have haddressed := hbooks.ledger.addressed event'
      ((Simulation.mem_future_next hnext).mpr (Or.inl rfl))
    exact (Simulation.mem_future_next hnext).mpr (Or.inr
      (Simulation.mem_future_heard (popped.hears_of_addressed haddressed) hmem
        hmessage))
  cases hstep with
  | quiet hnext hquiet => exact Or.inl (hheard _ _ hnext hevent)
  | consulted hnext hprompts hsim hdecide =>
      subst hsim
      rcases Simulation.mem_future_settled hevent hmessage with hold | hnew
      · exact Or.inl (hheard _ _ hnext hold)
      · obtain ⟨transfer, cost, target, hdecision, hplace, hgoal, htime⟩ :=
          hnew
        rw [Simulation.heard_now, Simulation.now_next hnext] at htime
        rw [Simulation.settled_context]
        exact Or.inr
          ⟨transfer, cost, target, hdecision, hplace, hgoal, htime⟩

/-- A task that a turn places had no node before. -/
theorem Step.unplaced (hstep : before.Step policy ending turn after)
    (hbooks : before.sim.Books)
    (hdecision : turn.decision? = some ⟨.assigned id place transfer, cost⟩) :
    ∃ task, before.sim.context.task? id = some task ∧ task.node = none := by
  cases hstep with
  | quiet hnext hquiet => cases hdecision
  | @consulted event popped sim decision strategy ctx service hnext hprompts
      hsim hdecide =>
      obtain rfl : decision = _ := hdecision
      have hheard : sim.Books := hsim ▸ hbooks.hear hnext
      obtain ⟨row, _, _, _, hrow, hpending, _⟩ :=
        hheard.placed (Strategy.decide_ok hdecide)
      obtain ⟨_, _, _, _, _, hunplaced, _⟩ :=
        hheard.ledger.pending_alone hrow hpending
      rw [hsim] at hrow
      obtain ⟨task, htask, _⟩ :=
        (Simulation.heard_extends hnext).known id row hrow
      refine ⟨task, htask, ?_⟩
      obtain ⟨later, hlater, hnode, _⟩ := hbooks.hear_keeps hnext id task htask
      obtain rfl : row = later := Option.some.inj (hrow.symm.trans hlater)
      cases hplace : task.node with
      | none => rfl
      | some node =>
          rw [hnode node hplace] at hunplaced
          cases hunplaced

variable {target : Target} {time : Time α}

theorem Step.ships (hstep : before.Step policy ending turn after)
    (hbooks : before.sim.Books)
    (hships : before.sim.Ships id place target time) :
    after.sim.Ships id place target time := by
  obtain ⟨row, hrow, hplace⟩ := hships.placed
  constructor
  · obtain ⟨later, hlater, hnode, _⟩ := hstep.keeps hbooks id row hrow
    exact ⟨later, hlater, hnode place hplace⟩
  · intro event hevent other hmessage
    rcases hstep.submission hbooks hevent hmessage with
      hold | ⟨_, _, _, hdecision, _⟩
    · exact hships.due event hold other hmessage
    · obtain ⟨task, htask, hunplaced⟩ := hstep.unplaced hbooks hdecision
      obtain rfl : row = task := Option.some.inj (hrow.symm.trans htask)
      rw [hunplaced] at hplace
      cases hplace

theorem Run.ships (hrun : Run policy ending first turns last)
    (hbooks : first.sim.Books)
    (hships : first.sim.Ships id place target time) :
    ∀ event ∈ agenda turns last, ∀ other,
      event.message = .taskSubmit id other →
        other = place ∧ event.target = target ∧ event.time = time := by
  induction hrun with
  | done now => exact hships.due
  | turn hstep _ ih =>
      intro event hevent other hmessage
      rcases List.mem_cons.mp hevent with rfl | hlater
      · exact hships.due _ hstep.event_mem other hmessage
      · exact ih (hstep.books hbooks) (hstep.ships hbooks hships) event hlater
          other hmessage

/-- What a turn that places a task leaves behind: its row with the start that
its deadline was judged by, and the submission on its way. -/
theorem Step.sends (hstep : before.Step policy ending turn after)
    (hbooks : before.sim.Books)
    (hdecision : turn.decision? = some ⟨.assigned id place transfer, cost⟩) :
    ∃ row node done, after.sim.context.task? id = some row ∧
      after.sim.context.Booked row place (turn.event.time + cost + transfer)
        done ∧
      done.isAfter row.deadline = false ∧
      after.sim.context.topology.node? place = some node ∧
      Message.taskSubmit id place ∈ after.sim.queue.messages ∧
      after.sim.Ships id place (.datacenter node.datacenter)
        (turn.event.time.dueIn (cost + transfer)) := by
  have hfresh : ∀ event ∈ before.sim.queue.future, ∀ other,
      event.message ≠ .taskSubmit id other := by
    obtain ⟨task, htask, hunplaced⟩ := hstep.unplaced hbooks hdecision
    intro event hevent
    exact hbooks.ledger.not_submitted htask hunplaced hevent
  have hplaced : ∃ row node done, after.sim.context.task? id = some row ∧
      after.sim.context.Booked row place (turn.event.time + cost + transfer)
        done ∧
      done.isAfter row.deadline = false ∧
      after.sim.context.topology.node? place = some node ∧
      Message.taskSubmit id place ∈ after.sim.queue.messages := by
    cases hstep with
    | quiet hnext hquiet => cases hdecision
    | @consulted event popped sim decision strategy ctx service hnext hprompts
        hsim hdecide =>
        obtain rfl : decision = _ := hdecision
        have hheard : sim.Books := hsim ▸ hbooks.hear hnext
        have hconsults := Strategy.decide_ok hdecide
        obtain ⟨_, node, row, done, _, _, hnode, _, hrow, hbooked, hsent⟩ :=
          hheard.placed hconsults
        have hnow : sim.queue.now = event.time := by
          rw [hsim, Simulation.heard_now]
          exact Simulation.now_next hnext
        have hmet := hheard.judged hconsults hrow hbooked
        rw [hnow] at hbooked
        rw [Simulation.settled_context]
        exact ⟨row, node, done, hrow, hbooked, hmet, hnode, hsent⟩
  obtain ⟨row, node, done, hrow, hbooked, hmet, hnode, hsent⟩ := hplaced
  refine ⟨row, node, done, hrow, hbooked, hmet, hnode, hsent,
    ⟨row, hrow, hbooked.node_eq⟩, ?_⟩
  intro event hevent other hmessage
  rcases hstep.submission hbooks hevent hmessage with
    hold | ⟨_, _, _, hother, hnode', htarget, htime⟩
  · exact (hfresh event hold other hmessage).elim
  · rw [hdecision] at hother
    cases hother
    obtain rfl : node = _ := Option.some.inj (hnode.symm.trans hnode')
    exact ⟨rfl, htarget, htime⟩

/-- A task is placed at `decided`.  The run from there to `last` keeps the start
that its deadline was judged by.  The task is submitted, to its node and when
both delays together have passed. -/
structure Departs (id : TaskId) (place : NodeId) (decided : Time α)
    (cost transfer : Span α) (later : List (Turn α)) (last : Moment σ α) :
    Prop where
  noted : ∃ row node, last.sim.context.task? id = some row ∧
    last.sim.context.topology.node? place = some node ∧
    row.node = some place ∧ row.start = some (decided + cost + transfer) ∧
    (decided + cost + transfer + node.runningTime row.length).isAfter
      row.deadline = false
  submission : ∃ event ∈ agenda later last,
    event.message = .taskSubmit id place
  submitted : ∀ event ∈ agenda later last, ∀ other,
    event.message = .taskSubmit id other → other = place ∧
      (∃ node, last.sim.context.topology.node? place = some node ∧
        event.target = .datacenter node.datacenter) ∧
      event.time = decided.dueIn (cost + transfer)

theorem Run.departs (hrun : Run policy ending first turns last)
    (hbooks : first.sim.Books) {decided : Time α} {row : Task α}
    {node : Node α} {done : Time α}
    (hrow : first.sim.context.task? id = some row)
    (hbooked : first.sim.context.Booked row place (decided + cost + transfer)
      done)
    (hmet : done.isAfter row.deadline = false)
    (hnode : first.sim.context.topology.node? place = some node)
    (hsent : Message.taskSubmit id place ∈ first.sim.queue.messages)
    (hships : first.sim.Ships id place (.datacenter node.datacenter)
      (decided.dueIn (cost + transfer))) :
    Departs id place decided cost transfer turns last := by
  have hextends := hrun.extends hbooks
  obtain ⟨after, hafter, hkept⟩ :=
    hextends.booked id row place _ done hrow hbooked
  have hdeadline : after.deadline = row.deadline :=
    congrArg Terms.deadline (hextends.terms_eq hrow hafter)
  obtain ⟨target, htarget, hmarked⟩ :=
    Topology.exists_node_of_reset hextends.reset hnode
  have hdatacenter : target.markIdle.datacenter = node.markIdle.datacenter :=
    congrArg Node.datacenter hmarked
  constructor
  case noted =>
    obtain ⟨other, hother, rfl⟩ := hkept.span
    rw [← hdeadline] at hmet
    exact ⟨after, other, hafter, hother, hkept.node_eq, hkept.start_eq, hmet⟩
  case submission =>
    obtain ⟨event, hevent, hmessage⟩ := List.mem_map.mp hsent
    exact ⟨event, hrun.mem_agenda hevent, hmessage⟩
  case submitted =>
    intro event hevent other hmessage
    obtain ⟨hplace, hgoal, htime⟩ :=
      hrun.ships hbooks hships event hevent other hmessage
    exact ⟨hplace, ⟨target, htarget,
      hgoal.trans (congrArg Target.datacenter hdatacenter.symm)⟩, htime⟩

/-- A placed task starts as noted exactly if both ways to add up its delays
agree. -/
theorem Departs.starts_iff {decided : Time α} {later : List (Turn α)}
    (hdeparts : Departs id place decided cost transfer later last) :
    (∀ event ∈ agenda later last, event.message = .taskSubmit id place →
        (last.sim.context.task? id).bind Task.start = some event.time) ↔
      decided.dueIn (cost + transfer) = decided + cost + transfer := by
  obtain ⟨row, _, hrow, _, _, hstart, _⟩ := hdeparts.noted
  rw [hrow, Option.bind_some, hstart]
  constructor
  · intro hagree
    obtain ⟨event, hevent, hmessage⟩ := hdeparts.submission
    obtain ⟨_, _, htime⟩ := hdeparts.submitted event hevent place hmessage
    rw [← htime]
    exact (Option.some.inj (hagree event hevent hmessage)).symm
  · intro hsame event hevent hmessage
    obtain ⟨_, _, htime⟩ := hdeparts.submitted event hevent place hmessage
    rw [htime, hsame]

/-- On exact clocks a placed task starts as noted exactly if its delays together
do not take back time. -/
theorem Departs.exact_starts_iff {decided : Time ℚ} {cost transfer : Span ℚ}
    {later : List (Turn ℚ)} {last : Moment σ ℚ}
    (hdeparts : Departs id place decided cost transfer later last) :
    (∀ event ∈ agenda later last, event.message = .taskSubmit id place →
        (last.sim.context.task? id).bind Task.start = some event.time) ↔
      0 ≤ (cost + transfer).value :=
  hdeparts.starts_iff.trans Time.dueIn_eq_iff

/-- In every run of an episode, on any clock and whatever the service answers,
a placed task has the start noted that its deadline was judged by, and it is
delivered to its node when both delays together have passed and never in the
past.  It starts as noted exactly if both ways to add up the delays agree. -/
theorem placed_task_departs {gateway : Gateway α} {ctx : Context α}
    {episode : Nat} {dataset : Dataset α} {service : σ}
    {earlier later : List (Turn α)}
    (hdataset : dataset.Fresh) (htopology : ctx.topology.Built)
    (hrun : Run policy ending (start gateway ctx episode dataset service)
      (earlier ++ turn :: later) last)
    (hdecision : turn.decision? = some ⟨.assigned id place transfer, cost⟩) :
    Departs id place turn.event.time cost transfer later last ∧
    ((∀ event ∈ agenda later last, event.message = .taskSubmit id place →
        (last.sim.context.task? id).bind Task.start = some event.time) ↔
      turn.event.time.dueIn (cost + transfer) =
        turn.event.time + cost + transfer) := by
  obtain ⟨now, next, hearlier, hstep, hlater⟩ := hrun.around
  have hbooks := Run.books hdataset htopology hearlier
  obtain ⟨row, node, done, hrow, hbooked, hmet, hnode, hsent, hships⟩ :=
    hstep.sends hbooks hdecision
  have hdeparts := hlater.departs (hstep.books hbooks) hrow hbooked hmet hnode
    hsent hships
  exact ⟨hdeparts, hdeparts.starts_iff⟩

/-- A turn that puts a submission on its way places its task. -/
theorem Step.places (hstep : before.Step policy ending turn after)
    (hbooks : before.sim.Books)
    (hnew : Message.taskSubmit id place ∉ before.sim.queue.messages)
    (hsent : Message.taskSubmit id place ∈ after.sim.queue.messages) :
    ∃ transfer cost,
      turn.decision? = some ⟨.assigned id place transfer, cost⟩ := by
  obtain ⟨event, hevent, hmessage⟩ := List.mem_map.mp hsent
  rcases hstep.submission hbooks hevent hmessage with
    hold | ⟨transfer, cost, _, hdecision, _⟩
  · exact (hnew (List.mem_map.mpr ⟨event, hold, hmessage⟩)).elim
  · exact ⟨transfer, cost, hdecision⟩

end Moment

/-! ## Starts that are not kept

A single task without data needs half a second on the only node. -/

namespace Sample

def tenths (n : Nat) : Binary64 := whole n / whole 10

def lone (arrival deadline : Binary64) : Dataset Binary64 :=
  ⟨"lone", [Job.fresh ⟨0⟩ 1 []], [⟨⟨0⟩, ⟨0⟩, 0, default, ⟨arrival⟩, ⟨deadline⟩,
    whole 5, whole 1, whole 0, none, Span.zero, none, none⟩]⟩

def distant (latency : Binary64) : Context Binary64 :=
  Context.fresh topology
    ⟨whole 1, whole 1, latency, whole 1, topology.cloudDatacenter⟩ true

def answering (raw : String) : Policy (StateM Unit) Binary64 :=
  ⟨fun _ => pure (.ok raw)⟩

def alone (arrival deadline latency : Binary64) : Moment Unit Binary64 :=
  Moment.start gateway (distant latency) 0 (lone arrival deadline) ()

theorem lone_fresh (arrival deadline : Binary64) :
    (lone arrival deadline).Fresh :=
  of_decide_eq_true rfl

theorem distant_built (latency : Binary64) :
    (distant latency).topology.Built := topology_built

/-- The lone task is placed upon its arrival. -/
theorem alone_places {raw : String} {arrival deadline latency : Binary64}
    {next : Moment Unit Binary64}
    (hnext : (alone arrival deadline latency).after? (answering raw) .drained
      1 = some next)
    (hsent : Message.taskSubmit ⟨0⟩ ⟨0⟩ ∈ next.sim.queue.messages) :
    ∃ turn transfer cost,
      (alone arrival deadline latency).Step (answering raw) .drained turn
        next ∧
      turn.decision? = some ⟨.assigned ⟨0⟩ ⟨0⟩ transfer, cost⟩ := by
  obtain ⟨turns, hlength, hrun⟩ := Moment.run_of_after? hnext
  obtain ⟨turn, rfl⟩ := List.length_eq_one_iff.mp hlength
  cases hrun with
  | turn hstep hdone =>
      cases hdone
      have hbooks : (alone arrival deadline latency).sim.Books :=
        Moment.start_books (lone_fresh arrival deadline)
          (distant_built latency)
      have hnew : Message.taskSubmit ⟨0⟩ ⟨0⟩ ∉
          (alone arrival deadline latency).sim.queue.messages := by
        intro hmem
        obtain ⟨event, hevent, hmessage⟩ := List.mem_map.mp hmem
        exact hbooks.ledger.not_submitted rfl rfl hevent ⟨0⟩ hmessage
      obtain ⟨transfer, cost, hdecision⟩ := hstep.places hbooks hnew hsent
      exact ⟨turn, transfer, cost, hstep, hdecision⟩

/-- The lone task is placed with one start noted and submitted at another one.
It is done in the end, late or not, and nothing counts as violated. -/
def Goes (raw : String) (first : Moment Unit Binary64)
    (noted real : Time Binary64) (late : Bool) : Prop :=
  ∃ turn later last transfer cost row finish,
    Moment.Run (answering raw) .drained first (turn :: later) last ∧
    turn.decision? = some ⟨.assigned ⟨0⟩ ⟨0⟩ transfer, cost⟩ ∧
    last.sim.queue.future = [] ∧ last.sim.context.task? ⟨0⟩ = some row ∧
    row.start = some noted ∧
    ((later.map Turn.event).filter fun event =>
      event.message = .taskSubmit ⟨0⟩ ⟨0⟩).map Event.time = [real] ∧
    row.finish = some finish ∧ finish.isAfter row.deadline = late ∧
    last.sim.context.violated = []

/-- The course of the lone task, computed. -/
def course? (raw : String) (first : Moment Unit Binary64) :
    Option (Option (Time Binary64) × List (Time Binary64) × Bool) := do
  let next ← first.after? (answering raw) .drained 1
  let last ← next.after? (answering raw) .drained 4
  let row ← last.sim.context.task? ⟨0⟩
  let finish ← row.finish
  if Message.taskSubmit ⟨0⟩ ⟨0⟩ ∈ next.sim.queue.messages ∧
      last.sim.queue.future = [] ∧ last.sim.context.violated = [] then
    some (row.start, ((next.events (answering raw) .drained 4).filter
      fun event => event.message = .taskSubmit ⟨0⟩ ⟨0⟩).map Event.time,
        finish.isAfter row.deadline)
  else none

theorem goes_of_course {raw : String} {arrival deadline latency : Binary64}
    {noted real : Time Binary64} {late : Bool}
    (hcourse : course? raw (alone arrival deadline latency) =
      some (some noted, [real], late)) :
    Goes raw (alone arrival deadline latency) noted real late := by
  simp only [course?, Option.bind_eq_bind, Option.bind_eq_some_iff,
    Option.ite_none_right_eq_some, Option.some.injEq,
    Prod.mk.injEq] at hcourse
  obtain ⟨next, hnext, last, hlast, row, hrow, finish, hfinish,
    ⟨hsent, hdrained, hviolated⟩, hstart, htimes, hlate⟩ := hcourse
  obtain ⟨turn, transfer, cost, hstep, hdecision⟩ := alone_places hnext hsent
  obtain ⟨later, hevents, hrun⟩ := Moment.run_of_events hlast
  rw [← hevents] at htimes
  exact ⟨turn, later, last, transfer, cost, row, finish, .turn hstep hrun,
    hdecision, hdrained, hrow, hstart, htimes, hfinish, hlate, hviolated⟩

/-- A decision and a transfer of a second each have a task of time 1 start at 3,
as noted. -/
theorem alone_task_departs : ∃ turn later last transfer cost,
    Moment.Run (answering "1,0d0") .drained
      (alone (whole 1) (whole 100) (whole 1)) (turn :: later) last ∧
    turn.decision? = some ⟨.assigned ⟨0⟩ ⟨0⟩ transfer, cost⟩ ∧
    Moment.Departs ⟨0⟩ ⟨0⟩ turn.event.time cost transfer later last ∧
    turn.event.time.dueIn (cost + transfer) =
      turn.event.time + cost + transfer := by
  have hgoes : Goes "1,0d0" (alone (whole 1) (whole 100) (whole 1))
      ⟨whole 3⟩ ⟨whole 3⟩ false := by
    apply goes_of_course
    decide +kernel
  obtain ⟨turn, later, last, transfer, cost, row, _, hrun, hdecision,
    hdrained, hrow, hstart, htimes, _⟩ := hgoes
  have hwhole : Moment.Run (answering "1,0d0") .drained
      (Moment.start gateway (distant (whole 1)) 0
        (lone (whole 1) (whole 100)) ()) ([] ++ turn :: later) last := hrun
  obtain ⟨hdeparts, hstarts⟩ := Moment.placed_task_departs (lone_fresh _ _)
    (distant_built _) hwhole hdecision
  refine ⟨turn, later, last, transfer, cost, hrun, hdecision, hdeparts,
    hstarts.mp ?_⟩
  intro event hevent hmessage
  rw [Moment.agenda, hdrained, List.append_nil] at hevent
  have htime : event.time ∈ ((later.map Turn.event).filter fun event =>
      event.message = .taskSubmit ⟨0⟩ ⟨0⟩).map Event.time :=
    List.mem_map_of_mem (List.mem_filter.mpr ⟨hevent, by simpa using hmessage⟩)
  rw [htimes, List.mem_singleton] at htime
  rw [hrow, Option.bind_some, hstart, htime]

/-- A decision of 0.4 and a transfer of 0.2 bring a task of time 0.1 to its node
later than noted, and it misses its deadline of 1.2 by the difference.  A
decision of -4 has a task of time 5 start at 2. -/
theorem starts_not_kept :
    (∃ real, real ≠ (⟨tenths 7⟩ : Time Binary64) ∧
      Goes "0.4,0d0" (alone (tenths 1) (tenths 12) (tenths 2)) ⟨tenths 7⟩ real
        true) ∧
    (⟨whole 5⟩ : Time Binary64) ≠ ⟨whole 2⟩ ∧
      Goes "-4,0d0" (alone (whole 5) (tenths 52) (whole 1)) ⟨whole 2⟩
        ⟨whole 5⟩ true := by
  refine ⟨⟨⟨tenths 1 + (tenths 4 + tenths 2)⟩, ?_, goes_of_course ?_⟩, ?_,
    goes_of_course ?_⟩
  · decide +kernel
  · decide +kernel
  · decide +kernel
  · decide +kernel

end Sample
end FogDispatch
