import FogDispatch.Proofs.Conservation
import FogDispatch.Proofs.Timetable

/-!
# Deadlines are kept

A placed task starts and finishes exactly when its decision foresaw it, as long
as clocks are exact and no delay is negative.  The decision gave it up unless
this was within its deadline.  So whatever completes does so in time, and every
task that would not is counted as a violation.
-/

namespace FogDispatch

variable {α σ : Type} [Arith α]

/-! ## What a decision weighs -/

namespace Strategy

variable {policy : Policy (StateM σ) α} {strategy : Strategy α}
  {pending : List TaskId} {ctx : Context α} {now : Time α} {before : σ}
  {answer answer' : Answer α}

theorem Asked.unique {after after' : σ}
    (hasked : strategy.Asked policy pending ctx now before answer after)
    (hother : strategy.Asked policy pending ctx now before answer' after') :
    answer' = answer ∧ after' = after := by
  obtain ⟨_, raw, hanswered, hread⟩ := hasked
  obtain ⟨_, raw', hanswered', hread'⟩ := hother
  rw [hanswered] at hanswered'
  cases hanswered'
  rw [hread] at hread'
  cases hread'
  exact ⟨rfl, rfl⟩

theorem Names.unique {id id' : TaskId} {place place' : NodeId}
    {task task' : Task α} {node node' : Node α}
    (hnames : strategy.Names pending ctx now answer id place task node)
    (hother : strategy.Names pending ctx now answer id' place' task' node') :
    task' = task ∧ node' = node := by
  have hresolved := hother.resolved
  rw [hnames.resolved] at hresolved
  cases hresolved
  have htask := hother.task_eq
  have hnode := hother.node_eq
  rw [hnames.task_eq] at htask
  rw [hnames.node_eq] at hnode
  cases htask
  cases hnode
  exact ⟨rfl, rfl⟩

/-- The decision on a task that the service puts on an idle node. -/
def weigh (ctx : Context α) (task : Task α) (node : Node α) (now : Time α)
    (cost : Span α) : Decision α :=
  ⟨if ctx.misses task node now cost then .dropped task.id
    else .assigned task.id node.id
      (ctx.network.transferDelay node.datacenter task.storage), cost⟩

theorem weigh_of_network {ctx other : Context α}
    (hnetwork : other.network = ctx.network) (task : Task α) (node : Node α)
    (now : Time α) (cost : Span α) :
    weigh other task node now cost = weigh ctx task node now cost := by
  unfold weigh Context.misses Context.startOn
  rw [hnetwork]

theorem Consults.weighs {next : Strategy α} {after : Context α}
    {decision : Option (Decision α)} {left middle : σ} {id : TaskId}
    {place : NodeId} {task : Task α} {node : Node α}
    (hconsults : strategy.Consults policy pending ctx now before decision next
      after left)
    (hasked : strategy.Asked policy pending ctx now before answer middle)
    (hnames : strategy.Names pending ctx now answer id place task node)
    (hidle : node.isIdle = true) :
    decision = some (weigh ctx task node now answer.cost) := by
  have hnetwork : (ctx.sampled now answer).network = ctx.network :=
    ctx.releaseFinished_network now
  rw [← weigh_of_network hnetwork]
  cases hconsults with
  | silent hoffers => exact (hasked.offers_ne_nil hoffers).elim
  | full hother hfull =>
      obtain ⟨rfl, _⟩ := hasked.unique hother
      rw [hnames.chosen] at hfull
      cases hfull
  | crowded hother hnames' hbusy hnone =>
      obtain ⟨rfl, _⟩ := hasked.unique hother
      obtain ⟨rfl, rfl⟩ := hnames.unique hnames'
      rw [hidle] at hbusy
      cases hbusy
  | rejected hother hnames' hbusy hsome =>
      obtain ⟨rfl, _⟩ := hasked.unique hother
      obtain ⟨rfl, rfl⟩ := hnames.unique hnames'
      rw [hidle] at hbusy
      cases hbusy
  | dropped hother hnames' _ hmissed hfeedback =>
      obtain ⟨rfl, _⟩ := hasked.unique hother
      obtain ⟨rfl, rfl⟩ := hnames.unique hnames'
      rw [weigh, if_pos hmissed]
  | assigned hother hnames' _ hmeets hfeedback =>
      obtain ⟨rfl, _⟩ := hasked.unique hother
      obtain ⟨rfl, rfl⟩ := hnames.unique hnames'
      rw [weigh, if_neg (Bool.eq_false_iff.mp hmeets)]

end Strategy

namespace Moment

/-- At the next event the service names a task and an idle node for it, and its
decision takes some time. -/
def Proposes (policy : Policy (StateM σ) α) (ending : EndCondition α)
    (now : Moment σ α) (task : Task α) (node : Node α) (cost : Span α) :
    Prop :=
  ∃ event popped answer service id place,
    now.sim.next? ending = some (event, popped) ∧
    popped.prompts event.target event.message = true ∧
    let sim := popped.heard event.target event.message
    sim.gateway.strategy.Asked policy sim.gateway.pending sim.context
      sim.queue.now now.service answer service ∧
    sim.gateway.strategy.Names sim.gateway.pending sim.context sim.queue.now
      answer id place task node ∧
    node.isIdle = true ∧ answer.cost = cost

variable {policy : Policy (StateM σ) α} {ending : EndCondition α}
  {before after first last : Moment σ α} {turn : Turn α}
  {turns : List (Turn α)}

/-- Whether a proposed task is given up depends on its deadline alone. -/
theorem Step.weighs (hstep : before.Step policy ending turn after)
    {task : Task α} {node : Node α} {cost : Span α}
    (hproposes : before.Proposes policy ending task node cost) :
    turn.decision? = some (Strategy.weigh before.sim.context task node
      turn.event.time cost) := by
  obtain ⟨event, popped, answer, left, id, place, hnext, hprompts, hasked,
    hnames, hidle, rfl⟩ := hproposes
  cases hstep with
  | quiet hother hquiet =>
      rw [hnext] at hother
      cases hother
      rw [hprompts] at hquiet
      cases hquiet
  | consulted hother _ hsim hdecide =>
      rw [hnext] at hother
      cases hother
      subst hsim
      have hweighs := (Strategy.decide_ok hdecide).weighs hasked hnames hidle
      rw [Strategy.weigh_of_network (Simulation.heard_extends hnext).network,
        Simulation.heard_now, Simulation.now_next hnext] at hweighs
      exact hweighs

end Moment

/-! ## What decisions cost -/

theorem Strategy.Consults.asked {policy : Policy (StateM σ) α}
    {strategy next : Strategy α} {pending : List TaskId}
    {ctx after : Context α} {now : Time α} {before left : σ}
    {taken : Decision α}
    (hconsults : strategy.Consults policy pending ctx now before (some taken)
      next after left) :
    ∃ answer middle, strategy.Asked policy pending ctx now before answer
      middle ∧ taken.cost = answer.cost := by
  cases hconsults with
  | full hasked hfull => exact ⟨_, _, hasked, rfl⟩
  | crowded hasked hnames hbusy hnone => exact ⟨_, _, hasked, rfl⟩
  | rejected hasked hnames hbusy hidle => exact ⟨_, _, hasked, rfl⟩
  | dropped hasked hnames hidle hmissed hfeedback =>
      exact ⟨_, _, hasked, rfl⟩
  | assigned hasked hnames hidle hmeets hfeedback =>
      exact ⟨_, _, hasked, rfl⟩

/-- No answer of a service is read as a decision that takes back time. -/
def Policy.Physical (policy : Policy (StateM σ) ℚ) (costs : CostModel ℚ) :
    Prop :=
  ∀ request before raw after answer,
    (policy.ask request).run before = (.ok raw, after) →
      Answer.read costs raw = .ok answer → 0 ≤ answer.cost.value

namespace Moment

theorem Step.physical {policy : Policy (StateM σ) ℚ} {ending : EndCondition ℚ}
    {before after : Moment σ ℚ} {turn : Turn ℚ}
    (hstep : before.Step policy ending turn after)
    (hpolicy : policy.Physical before.sim.gateway.strategy.costs) :
    turn.Physical := by
  intro taken htaken
  cases hstep with
  | quiet hnext hquiet => cases htaken
  | @consulted event popped sim decision _ _ _ hnext hprompts hsim hdecide =>
      obtain rfl : decision = some taken := htaken
      have hstrategy : sim.gateway.strategy = before.sim.gateway.strategy := by
        rw [hsim, Simulation.heard_strategy,
          (Simulation.next?_eq_some hnext).1]
      obtain ⟨answer, middle, hasked, hcost⟩ :=
        (Strategy.decide_ok hdecide).asked
      obtain ⟨raw, hanswered, hread⟩ := hasked.answered
      rw [hstrategy] at hanswered hread
      rw [hcost]
      exact hpolicy _ _ raw _ answer hanswered hread

theorem Run.physical {policy : Policy (StateM σ) ℚ} {ending : EndCondition ℚ}
    {first last : Moment σ ℚ} {turns : List (Turn ℚ)}
    (hrun : Run policy ending first turns last)
    (hpolicy : policy.Physical first.sim.gateway.strategy.costs) :
    ∀ turn ∈ turns, turn.Physical := by
  induction hrun with
  | done now => exact List.forall_mem_nil _
  | @turn before middle _ _ _ hstep _ ih =>
      have hcosts : middle.sim.gateway.strategy.costs =
          before.sim.gateway.strategy.costs :=
        congrArg Setting.costs hstep.setting
      refine List.forall_mem_cons.mpr ⟨hstep.physical hpolicy, ih ?_⟩
      rwa [hcosts]

variable {policy : Policy (StateM σ) α} {ending : EndCondition α}
  {before after first last : Moment σ α} {turn : Turn α}
  {turns : List (Turn α)}

/-! ## What becomes of an event -/

/-- A run around one of its turns. -/
theorem Run.around {earlier later : List (Turn α)}
    (hrun : Run policy ending first (earlier ++ turn :: later) last) :
    ∃ now next, Run policy ending first earlier now ∧
      now.Step policy ending turn next ∧ Run policy ending next later last := by
  obtain ⟨now, hearlier, hrest⟩ := hrun.split
  cases hrest with
  | turn hstep hlater => exact ⟨now, _, hearlier, hstep, hlater⟩

theorem Step.event_mem (hstep : before.Step policy ending turn after) :
    turn.event ∈ before.sim.queue.future := by
  obtain ⟨popped, hnext⟩ := hstep.next
  exact (Simulation.mem_future_next hnext).mpr (Or.inl rfl)

/-- All events that a run delivers or leaves to be delivered. -/
def agenda (turns : List (Turn α)) (last : Moment σ α) : List (Event α) :=
  turns.map Turn.event ++ last.sim.queue.future

theorem Step.event_kept (hstep : before.Step policy ending turn after)
    {event : Event α} (hevent : event ∈ before.sim.queue.future) :
    event = turn.event ∨ event ∈ after.sim.queue.future := by
  obtain ⟨popped, hnext⟩ := hstep.next
  rcases (Simulation.mem_future_next hnext).mp hevent with hnow | hlater
  · exact Or.inl hnow
  · have hschedule : ∀ (queue : EventQueue α) delay target message,
        event ∈ queue.future →
          event ∈ (queue.schedule delay target message).future := by
      intro queue delay target message hmem
      exact EventQueue.mem_place.mpr (Or.inr hmem)
    right
    apply hstep.preserves fun sim => event ∈ sim.queue.future
    · intro other next hother
      rw [hnext] at hother
      cases hother
      exact Simulation.heard_queue_keeps _ hschedule hlater _ _
    · intro sim decision strategy ctx service hmem _ _
      exact Simulation.settled_queue_keeps _ hschedule hmem _ _ _

theorem Run.mem_agenda (hrun : Run policy ending first turns last)
    {event : Event α} (hevent : event ∈ first.sim.queue.future) :
    event ∈ agenda turns last := by
  induction hrun with
  | done now => exact hevent
  | turn hstep _ ih =>
      rcases hstep.event_kept hevent with rfl | hlater
      · exact List.mem_cons_self
      · exact List.mem_cons_of_mem _ (ih hlater)

end Moment

namespace Turn

/-- The task that is given up, if any. -/
def dropped? (turn : Turn α) : Option TaskId :=
  match turn.decision? with
  | some ⟨.dropped id, _⟩ => some id
  | _ => none

end Turn

theorem Strategy.Consults.violated {policy : Policy (StateM σ) α}
    {strategy next : Strategy α} {pending : List TaskId}
    {ctx after : Context α} {now : Time α} {before left : σ}
    {decision : Option (Decision α)} {event : Event α}
    (hconsults : strategy.Consults policy pending ctx now before decision next
      after left) :
    after.violated = ctx.violated ++
      (Turn.mk event (some decision)).dropped?.toList := by
  have hswept := ctx.releaseFinished_violated now
  have hkept := hswept.trans (List.append_nil ctx.violated).symm
  cases hconsults with
  | silent hoffers => exact hkept
  | full hasked hfull => exact hkept
  | crowded hasked hnames hbusy hnone => exact hkept
  | rejected hasked hnames hbusy hidle => exact hkept
  | @dropped _ _ _ _ _ task _ hasked hnames hidle hmissed hfeedback =>
      exact congrArg (· ++ [task.id]) hswept
  | assigned hasked hnames hidle hmeets hfeedback => exact hkept

namespace Moment

variable {policy : Policy (StateM σ) α} {ending : EndCondition α}
  {before after first last : Moment σ α} {turn : Turn α}
  {turns : List (Turn α)}

theorem Step.violated (hstep : before.Step policy ending turn after) :
    after.sim.context.violated =
      before.sim.context.violated ++ turn.dropped?.toList := by
  have hheard : ∀ event popped,
      before.sim.next? ending = some (event, popped) →
        (popped.heard event.target event.message).context.violated =
          before.sim.context.violated := by
    intro event popped hnext
    rcases Simulation.heard_context hnext with hsame | ⟨_, _, _, hfinished⟩
    · rw [hsame]
    · rw [hfinished]
      rfl
  cases hstep with
  | quiet hnext hquiet =>
      rw [hheard _ _ hnext]
      exact (List.append_nil _).symm
  | consulted hnext hprompts hsim hdecide =>
      subst hsim
      rw [Simulation.settled_context, (Strategy.decide_ok hdecide).violated,
        hheard _ _ hnext]

/-- The counted violations of a run are the tasks that it gives up. -/
theorem Run.violated (hrun : Run policy ending first turns last) :
    last.sim.context.violated =
      first.sim.context.violated ++ turns.filterMap Turn.dropped? := by
  induction hrun with
  | done now => simp
  | @turn _ _ _ turn _ hstep _ ih =>
      rw [ih, hstep.violated, List.append_assoc, List.filterMap_cons]
      cases turn.dropped? <;> rfl

end Moment

theorem Simulation.submission_mem_settled (sim : Simulation α) (id : TaskId)
    {place : NodeId} (transfer cost : Span α) (strategy : Strategy α)
    {ctx : Context α} {target : Node α}
    (htarget : ctx.topology.node? place = some target) :
    Message.taskSubmit id place ∈ (sim.settled
      (some ⟨.assigned id place transfer, cost⟩) strategy
        ctx).queue.messages := by
  rw [settled_queue_of_assigned sim id transfer cost strategy htarget]
  simp [EventQueue.mem_messages_schedule]

/-- A placement makes an appointment and sends the task on its way. -/
theorem Simulation.Books.placed {sim : Simulation α}
    {policy : Policy (StateM σ) α} {strategy : Strategy α} {ctx : Context α}
    {before after : σ} {id : TaskId} {place : NodeId} {transfer cost : Span α}
    (hbooks : sim.Books)
    (hconsults : sim.gateway.strategy.Consults policy sim.gateway.pending
      sim.context sim.queue.now before
        (some ⟨.assigned id place transfer, cost⟩) strategy ctx after) :
    ∃ task target row done, sim.context.task? id = some task ∧
      id ∈ sim.gateway.pending ∧ ctx.topology.node? place = some target ∧
      transfer = sim.context.network.transferDelay target.datacenter
        task.storage ∧
      ctx.task? id = some row ∧
      ctx.Booked row place (sim.queue.now + cost + transfer) done ∧
      Message.taskSubmit id place ∈ (sim.settled
        (some ⟨.assigned id place transfer, cost⟩) strategy
          ctx).queue.messages := by
  cases hconsults with
  | @assigned answer _ _ other place task node hasked hnames hidle hmeets
      hfeedback =>
      have htask : sim.context.task? other = some task := by
        simpa using hnames.task_eq
      obtain rfl := hbooks.ledger.numbered other task htask
      have hnumbered := hbooks.occupancy.numbered
      obtain ⟨hown, hplace, _⟩ := hnames.node_candidate hnumbered
      have hnode := hnames.node_eq
      rw [← hown] at hnode hplace
      have hnetwork : (sim.context.sampled sim.queue.now answer).network =
          sim.context.network :=
        sim.context.releaseFinished_network sim.queue.now
      have hbooked := Context.booked_bound task hnode sim.queue.now answer.cost
      have hmarked := Context.bound_task? hnames.task_eq node sim.queue.now
        answer.cost task.id
      rw [if_pos rfl] at hmarked
      have htarget := Context.bound_node?
        (sim.context.sampled sim.queue.now answer) task node sim.queue.now
          answer.cost node.id
      rw [if_pos rfl, hnode, Option.map_some] at htarget
      refine ⟨task, node.markBusy, _, _, htask, hnames.mem_pending, htarget,
        congrArg (·.transferDelay node.datacenter task.storage) hnetwork,
        hmarked, hbooked.of_same rfl rfl, ?_⟩
      exact sim.submission_mem_settled task.id _ answer.cost _ htarget

/-! ## Exact runs -/

namespace Moment

variable {policy : Policy (StateM σ) ℚ} {ending : EndCondition ℚ}
  {before after first last : Moment σ ℚ} {turn : Turn ℚ}
  {turns : List (Turn ℚ)}

/-- Every event of a run comes when the appointment of its task says so. -/
theorem Run.agrees (hrun : Run policy ending first turns last)
    (hbooks : first.sim.Books) (hpunctual : first.sim.Punctual)
    (hphysical : ∀ turn ∈ turns, turn.Physical)
    (htable : first.sim.Timetable) :
    ∀ event ∈ agenda turns last, last.sim.context.Agrees event := by
  induction hrun with
  | done now => exact htable.due
  | turn hstep hrest ih =>
      obtain ⟨hturn, hlater⟩ := List.forall_mem_cons.mp hphysical
      have hafter := hstep.timetable hbooks hpunctual.ordered hturn htable
      intro event hevent
      rcases List.mem_cons.mp hevent with rfl | hmem
      · have hextends := Run.extends (.turn hstep hrest) hbooks
        exact hextends.agrees (htable.due _ hstep.event_mem)
      · exact ih (hstep.books hbooks) (hstep.punctual hpunctual) hlater hafter
          event hmem

/-- A task is placed after its arrival. -/
theorem Step.assigned (hstep : before.Step policy ending turn after)
    (hbooks : before.sim.Books) (hordered : before.sim.queue.Ordered)
    (htable : before.sim.Timetable) {id : TaskId} {place : NodeId}
    {transfer cost : Span ℚ}
    (hdecision : turn.decision? = some ⟨.assigned id place transfer, cost⟩) :
    ∃ task target row done, before.sim.context.task? id = some task ∧
      task.arrival.value ≤ turn.event.time.value ∧
      after.sim.context.topology.node? place = some target ∧
      transfer = before.sim.context.network.transferDelay target.datacenter
        task.storage ∧
      after.sim.context.task? id = some row ∧
      after.sim.context.Booked row place (turn.event.time + cost + transfer)
        done ∧
      Message.taskSubmit id place ∈ after.sim.queue.messages := by
  cases hstep with
  | quiet hnext hquiet => cases hdecision
  | @consulted event popped sim decision strategy ctx service hnext hprompts
      hsim hdecide =>
      obtain rfl : decision = _ := hdecision
      have hextends := Simulation.heard_extends hnext
      have hheard := htable.hear hordered hnext
      have hnow : sim.queue.now = event.time := by
        rw [hsim, Simulation.heard_now]
        exact Simulation.now_next hnext
      rw [← hsim] at hextends hheard
      obtain ⟨task, target, row, done, htask, hpending, htarget, htransfer,
        hrow, hbooked, hsent⟩ := Simulation.Books.placed
          (hsim ▸ hbooks.hear hnext) (Strategy.decide_ok hdecide)
      obtain ⟨first, hfirst, hterms⟩ := hextends.known id task htask
      have harrived := hheard.arrived id hpending task htask
      rw [hnow] at harrived hbooked
      have harrival : task.arrival = first.arrival :=
        congrArg Terms.arrival hterms
      have hstorage : task.storage = first.storage :=
        congrArg Terms.storage hterms
      rw [harrival] at harrived
      rw [hextends.network, hstorage] at htransfer
      exact ⟨first, target, row, done, hfirst, harrived, htarget, htransfer,
        hrow, hbooked, hsent⟩

/-- A task is decided on after its arrival, and the run from there to `last`
starts and finishes it when the decision foresaw it. -/
structure KeepsTo (task : Task ℚ) (place : NodeId)
    (decided start done : Time ℚ) (later : List (Turn ℚ))
    (last : Moment σ ℚ) : Prop where
  arrived : task.arrival.value ≤ decided.value
  awaited : decided.value ≤ start.value
  met : done.value ≤ task.deadline.value
  submission : ∃ event ∈ agenda later last,
    event.message = .taskSubmit task.id place
  submitted : ∀ event ∈ agenda later last, ∀ other,
    event.message = .taskSubmit task.id other →
      other = place ∧ event.time = start
  finished : ∀ event ∈ agenda later last, ∀ other,
    event.message = .taskFinished task.id other →
      other = place ∧ event.time = done
  noted : ∃ row, last.sim.context.task? task.id = some row ∧
    row.node = some place ∧ row.start = some start ∧
    (∀ finish, row.finish = some finish → finish = done) ∧
    (last.sim.queue.future = [] → row.finish = some done)

theorem Run.keeps_to (hrun : Run policy ending first turns last)
    (hbooks : first.sim.Books) (hpunctual : first.sim.Punctual)
    (hphysical : ∀ turn ∈ turns, turn.Physical)
    (htable : first.sim.Timetable) {task row : Task ℚ} {place : NodeId}
    {decided start done : Time ℚ}
    (hrow : first.sim.context.task? task.id = some row)
    (hbooked : first.sim.context.Booked row place start done)
    (hterms : row.terms = task.terms)
    (hsent : Message.taskSubmit task.id place ∈ first.sim.queue.messages)
    (harrival : task.arrival.value ≤ decided.value)
    (hstart : decided.value ≤ start.value) :
    KeepsTo task place decided start done turns last := by
  have hagrees := hrun.agrees hbooks hpunctual hphysical htable
  have hlast := hrun.timetable hbooks hpunctual hphysical htable
  have hextends := hrun.extends hbooks
  obtain ⟨after, hafter, hkept⟩ :=
    hextends.booked task.id row place start done hrow hbooked
  have hdeadline : after.deadline = task.deadline :=
    congrArg Terms.deadline ((hextends.terms_eq hrow hafter).trans hterms)
  constructor
  case arrived => exact harrival
  case awaited => exact hstart
  case met =>
    rw [← hdeadline]
    exact hlast.met task.id after place start done hafter hkept
  case submission =>
    obtain ⟨event, hevent, hmessage⟩ := List.mem_map.mp hsent
    exact ⟨event, hrun.mem_agenda hevent, hmessage⟩
  case submitted =>
    intro event hevent other hmessage
    have hown := hagrees event hevent
    rw [Context.Agrees, hmessage] at hown
    obtain ⟨found, foundDone, hfound, hits⟩ := hown
    obtain rfl : after = found := Option.some.inj (hafter.symm.trans hfound)
    obtain ⟨hplace, htime, _⟩ := hkept.unique hits
    exact ⟨hplace, htime⟩
  case finished =>
    intro event hevent other hmessage
    have hown := hagrees event hevent
    rw [Context.Agrees, hmessage] at hown
    obtain ⟨found, foundStart, hfound, hits⟩ := hown
    obtain rfl : after = found := Option.some.inj (hafter.symm.trans hfound)
    obtain ⟨hplace, _, htime⟩ := hkept.unique hits
    exact ⟨hplace, htime⟩
  case noted =>
    have hfinish : ∀ finish, after.finish = some finish → finish = done := by
      intro finish hnoted
      obtain ⟨_, _, hits⟩ := hlast.finished task.id after finish hafter hnoted
      exact (hkept.unique hits).2.2
    refine ⟨after, hafter, hkept.node_eq, hkept.start_eq, hfinish, ?_⟩
    intro hdrained
    have hafterwards : last.sim.Books :=
      hrun.invariant (fun _ _ _ hgood hstep => hstep.books hgood) hbooks
    have hfree := hafterwards.hosts_of_drained hdrained place task.id
    cases hnoted : after.finish with
    | some finish => rw [hfinish finish hnoted]
    | none =>
        have hhosts := Context.hosts_iff.mpr
          ⟨after, hafter, hkept.node_eq, hnoted⟩
        rw [hfree] at hhosts
        cases hhosts

section

variable {gateway : Gateway ℚ} {ctx : Context ℚ} {episode : Nat}
  {dataset : Dataset ℚ} {service : σ} (hdataset : dataset.Fresh)
  (htopology : ctx.topology.Built) (hdemands : dataset.Physical)
  (hnetwork : ctx.network.Physical)
  (hrun : Run policy ending (start gateway ctx episode dataset service) turns
    last)
  (hphysical : ∀ turn ∈ turns, turn.Physical)

include hdataset htopology hdemands hnetwork hrun hphysical

theorem Run.exact : last.sim.Timetable :=
  hrun.timetable (start_books hdataset htopology)
    (Simulation.start_punctual hdataset episode) hphysical
    (Simulation.start_timetable hdataset htopology hdemands hnetwork episode)

/-- The appointment that a placement makes, in the terms of the dataset. -/
theorem Run.placed {next : Moment σ ℚ}
    (hstep : last.Step policy ending turn next) {id : TaskId} {place : NodeId}
    {transfer cost : Span ℚ}
    (hdecision : turn.decision? = some ⟨.assigned id place transfer, cost⟩) :
    ∃ task node row, dataset.tasks[id.index]? = some task ∧ task.id = id ∧
      ctx.topology.node? place = some node ∧
      transfer = ctx.network.transferDelay node.datacenter task.storage ∧
      task.arrival.value ≤ turn.event.time.value ∧
      next.sim.context.task? id = some row ∧ row.terms = task.terms ∧
      next.sim.context.Booked row place (turn.event.time + cost + transfer)
        (turn.event.time + cost + transfer + node.runningTime task.length) ∧
      Message.taskSubmit id place ∈ next.sim.queue.messages := by
  have hbooks := Run.books hdataset htopology hrun
  have hpunctual := Run.punctual hdataset hrun
  have htable := Run.exact hdataset htopology hdemands hnetwork hrun hphysical
  have hextends := hrun.extends (start_books hdataset htopology)
  obtain ⟨before, target, row, done, hbefore, harrived, htarget, hdelay, hrow,
    hbooked, hsent⟩ := hstep.assigned hbooks hpunctual.ordered htable hdecision
  have hnext := hextends.trans (hstep.extends hbooks)
  obtain ⟨task, htask, hterms⟩ := hextends.known id before hbefore
  have hrowTerms : row.terms = task.terms := hnext.terms_eq htask hrow
  -- The node is busy by now, so it is the planned one up to its mark only.
  have hreset : ctx.topology.reset = next.sim.context.topology.reset := by
    rw [hnext.reset]
    exact (Topology.reset_reset ctx.topology).symm
  obtain ⟨node, hnode, hmarked⟩ :=
    Topology.exists_node_of_reset hreset htarget
  have htransfer : transfer =
      ctx.network.transferDelay node.datacenter task.storage := by
    have hdatacenter : node.markIdle.datacenter = target.markIdle.datacenter :=
      congrArg Node.datacenter hmarked
    change node.datacenter = target.datacenter at hdatacenter
    have hstorage : before.storage = task.storage :=
      congrArg Terms.storage hterms
    rw [hdelay, hextends.network, hdatacenter, hstorage]
    rfl
  have hdone : done = turn.event.time + cost + transfer +
      node.runningTime task.length := by
    obtain ⟨other, hother, hspan⟩ := hbooked.span
    obtain rfl : target = other := Option.some.inj (htarget.symm.trans hother)
    have hlength : row.length = task.length := congrArg Terms.length hrowTerms
    rw [hspan, hlength, Node.runningTime_of_markIdle hmarked]
  have harrival : before.arrival = task.arrival :=
    congrArg Terms.arrival hterms
  rw [harrival] at harrived
  rw [hdone] at hbooked
  exact ⟨task, node, row, htask, (Simulation.start_task? hdataset htask).1,
    hnode, htransfer, harrived, hrow, hrowTerms, hbooked, hsent⟩

/-- Every placed task keeps to the times that its decision foresaw. -/
theorem Run.assigned_keeps {earlier later : List (Turn ℚ)}
    (hturns : turns = earlier ++ turn :: later) {id : TaskId}
    {place : NodeId} {transfer cost : Span ℚ}
    (hdecision : turn.decision? = some ⟨.assigned id place transfer, cost⟩) :
    ∃ task node, dataset.tasks[id.index]? = some task ∧ task.id = id ∧
      ctx.topology.node? place = some node ∧
      transfer = ctx.network.transferDelay node.datacenter task.storage ∧
      let start := turn.event.time + cost + transfer
      KeepsTo task place turn.event.time start
        (start + node.runningTime task.length) later last := by
  subst hturns
  obtain ⟨now, next, hearlier, hstep, hlater⟩ := hrun.around
  obtain ⟨hbefore, hrest⟩ := List.forall_mem_append.mp hphysical
  obtain ⟨hturn, hafter⟩ := List.forall_mem_cons.mp hrest
  have hbooks := Run.books hdataset htopology hearlier
  have hpunctual := Run.punctual hdataset hearlier
  have htable :=
    Run.exact hdataset htopology hdemands hnetwork hearlier hbefore
  obtain ⟨task, node, row, htask, rfl, hnode, htransfer, harrived, hrow, hterms,
    hbooked, hsent⟩ := Run.placed hdataset htopology hdemands hnetwork hearlier
      hbefore hstep hdecision
  have hmem : task ∈ dataset.tasks := List.mem_of_getElem? htask
  have hstart : turn.event.time.value ≤
      (turn.event.time + cost + transfer).value := by
    have hcost : 0 ≤ cost.value := hturn _ hdecision
    have hwait := hnetwork.transfer node.datacenter (hdemands.storage task hmem)
    rw [← htransfer] at hwait
    rw [Time.value_add, Time.value_add]
    linarith
  exact ⟨task, node, htask, rfl, hnode, htransfer,
    hlater.keeps_to (hstep.books hbooks) (hstep.punctual hpunctual) hafter
      (hstep.timetable hbooks hpunctual.ordered hturn htable) hrow hbooked
      hterms hsent harrived hstart⟩

/-- Whatever completes does so within its deadline and was not given up. -/
theorem Run.completed_in_time {id : TaskId} {row : Task ℚ} {finish : Time ℚ}
    (hrow : last.sim.context.task? id = some row)
    (hfinish : row.finish = some finish) :
    id ∉ last.sim.context.violated ∧
      ∃ task, dataset.tasks[id.index]? = some task ∧
        finish.value ≤ task.deadline.value := by
  have htable := Run.exact hdataset htopology hdemands hnetwork hrun hphysical
  have hledger := (Run.books hdataset htopology hrun).ledger
  have hextends := hrun.extends (start_books hdataset htopology)
  obtain ⟨place, start, hbooked⟩ := htable.finished id row finish hrow hfinish
  constructor
  · have honce := hledger.once id
    have hplaced := hledger.placed id row hrow
    rw [hrow, Simulation.presence] at honce
    rw [hbooked.node_eq] at hplaced
    simp only [Option.isSome_some, if_true] at honce hplaced
    rw [← List.count_pos_iff]
    omega
  · obtain ⟨task, htask, hterms⟩ := hextends.known id row hrow
    have hdeadline : row.deadline = task.deadline :=
      congrArg Terms.deadline hterms
    refine ⟨task, htask, ?_⟩
    rw [← hdeadline]
    exact htable.met id row place start finish hrow hbooked

end

/-- In every run of an episode with exact clocks and no negative delays, each
placed task starts and finishes when its decision foresaw it, and in time.  What
would not be in time is given up and counted, and nothing else is. -/
theorem deadlines_kept {gateway : Gateway ℚ} {ctx : Context ℚ}
    {episode : Nat} {dataset : Dataset ℚ} {service : σ}
    (hdataset : dataset.Fresh) (htopology : ctx.topology.Built)
    (hdemands : dataset.Physical) (hnetwork : ctx.network.Physical)
    (hrun : Run policy ending (start gateway ctx episode dataset service) turns
      last)
    (hphysical : ∀ turn ∈ turns, turn.Physical) :
    (∀ earlier turn later id place (transfer cost : Span ℚ),
      turns = earlier ++ turn :: later →
      turn.decision? = some ⟨.assigned id place transfer, cost⟩ →
        ∃ task node, dataset.tasks[id.index]? = some task ∧ task.id = id ∧
          ctx.topology.node? place = some node ∧
          transfer = ctx.network.transferDelay node.datacenter task.storage ∧
          let start : Time ℚ := turn.event.time + cost + transfer
          let running : Span ℚ := ⟨task.length / node.mips⟩
          KeepsTo task place turn.event.time start (start + running) later
            last) ∧
    (∀ id row finish, last.sim.context.task? id = some row →
      row.finish = some finish → id ∉ last.sim.context.violated ∧
        ∃ task, dataset.tasks[id.index]? = some task ∧
          finish.value ≤ task.deadline.value) ∧
    (∀ earlier now turn next later task node cost,
      turns = earlier ++ turn :: later →
      Run policy ending (start gateway ctx episode dataset service) earlier
        now →
      now.Step policy ending turn next →
      now.Proposes policy ending task node cost →
        let transfer := ctx.network.transferDelay node.datacenter task.storage
        let running : Span ℚ := ⟨task.length / node.mips⟩
        let done : Time ℚ := turn.event.time + cost + transfer + running
        (task.deadline.value < done.value →
          turn.decision? = some ⟨.dropped task.id, cost⟩ ∧
            task.id ∈ last.sim.context.violated) ∧
        (done.value ≤ task.deadline.value →
          turn.decision? =
            some ⟨.assigned task.id node.id transfer, cost⟩)) ∧
    last.sim.context.violated = turns.filterMap Turn.dropped? ∧
    last.sim.context.metrics.current.totalViolations =
      (turns.filterMap Turn.dropped?).length := by
  have hbooks : (start gateway ctx episode dataset service).sim.Books :=
    start_books hdataset htopology
  have hviolated : last.sim.context.violated =
      turns.filterMap Turn.dropped? := hrun.violated
  refine ⟨?_, ?_, ?_, hviolated, ?_⟩
  · intro earlier turn later id place transfer cost hturns hdecision
    exact hrun.assigned_keeps hdataset htopology hdemands hnetwork hphysical
      hturns hdecision
  · intro id row finish hrow hfinish
    exact hrun.completed_in_time hdataset htopology hdemands hnetwork
      hphysical hrow hfinish
  · intro earlier now turn next later task node cost hturns hearlier hstep
      hproposes transfer running done
    have hweighs := hstep.weighs hproposes
    have hsame : now.sim.context.network = ctx.network :=
      (hearlier.extends hbooks).network
    rw [Strategy.weigh_of_network hsame] at hweighs
    have hmem : turn ∈ turns := by simp [hturns]
    constructor
    · intro hlate
      have hmisses : ctx.misses task node turn.event.time cost = true :=
        Time.isAfter_iff_lt.mpr hlate
      rw [Strategy.weigh, if_pos hmisses] at hweighs
      refine ⟨hweighs, ?_⟩
      rw [hviolated]
      refine List.mem_filterMap.mpr ⟨turn, hmem, ?_⟩
      rw [Turn.dropped?, hweighs]
    · intro hmet
      have hmeets : ctx.misses task node turn.event.time cost = false :=
        Context.misses_eq_false_iff.mpr hmet
      rwa [Strategy.weigh, if_neg (Bool.eq_false_iff.mp hmeets)] at hweighs
  · rw [← hviolated]
    exact (hrun.tallied hbooks start_tallied).missed

end Moment

/-! ## A small exact episode

A single cloud node is there for two tasks, and the second one can not wait for
the first. -/

namespace Exact

def device : NodeSpec ℚ := ⟨10, none, 8, 8, 2, 1⟩

def plan : TopologyPlan ℚ := ⟨"", 1, device, 0, [], device⟩

def topology : Topology ℚ := Topology.ofPlanUnchecked plan

def task (index : Nat) (arrival deadline : ℚ) : Task ℚ :=
  ⟨⟨index⟩, ⟨0⟩, index, default, ⟨arrival⟩, ⟨deadline⟩, 5, 1, 1, none,
    Span.zero, none, none⟩

/-- The second task can wait until its deadline. -/
def waiting (deadline : ℚ) : Dataset ℚ :=
  ⟨"exact", [Job.fresh ⟨0⟩ 2 []], [task 0 1 100, task 1 2 deadline]⟩

def dataset : Dataset ℚ := waiting 3

def context : Context ℚ :=
  Context.fresh topology ⟨1, 1, 1, 1, topology.cloudDatacenter⟩ true

def gateway : Gateway ℚ :=
  Gateway.fresh (Strategy.fresh .placement ⟨1, 1, true⟩)

/-- Every answer takes a second and names the first candidate. -/
def service : Policy (StateM Unit) ℚ := ⟨fun _ => pure (.ok "1,0d0")⟩

def first : Moment Unit ℚ := Moment.start gateway context 0 dataset ()

theorem waiting_fresh (deadline : ℚ) : (waiting deadline).Fresh :=
  of_decide_eq_true rfl

theorem dataset_fresh : dataset.Fresh := waiting_fresh 3

theorem topology_built : context.topology.Built := by
  have hplan : Topology.ofPlan plan = .ok topology := by decide +kernel
  exact Topology.built_of_ofPlan hplan

theorem waiting_physical (deadline : ℚ) : (waiting deadline).Physical := by
  constructor <;> simp [waiting, task]

theorem dataset_physical : dataset.Physical := waiting_physical 3

theorem network_physical : context.network.Physical := by
  constructor <;> simp [context, Context.fresh]

theorem service_physical :
    service.Physical first.sim.gateway.strategy.costs := by
  intro request before raw after answer hasked hread
  cases hasked
  have hanswer : (Answer.read first.sim.gateway.strategy.costs
      "1,0d0").toOption.map (·.cost.value) = some 1 := by
    decide +kernel
  rw [hread] at hanswer
  have hcost : answer.cost.value = 1 := Option.some.inj hanswer
  rw [hcost]
  exact zero_le_one

end Exact

/-- The first task is done at four and a half and the second one is given
up. -/
theorem Moment.exact_deadlines_kept :
    ∃ turns last, turns.length = 8 ∧
      Run Exact.service .drained Exact.first turns last ∧
      last.sim.queue.future = [] ∧
      (∃ task, Exact.dataset.tasks[0]? = some task ∧
        9 / 2 ≤ task.deadline.value) ∧
      turns.filterMap Turn.dropped? = [⟨1⟩] ∧
      last.sim.context.metrics.current.totalViolations = 1 := by
  have hend : ((Exact.first.after? Exact.service .drained 8).map fun now =>
      (now.sim.queue.future, (now.sim.context.task? ⟨0⟩).bind Task.finish,
        now.sim.context.violated)) = some ([], some ⟨9 / 2⟩, [⟨1⟩]) := by
    decide +kernel
  obtain ⟨last, hafter, hstate⟩ := Option.map_eq_some_iff.mp hend
  rw [Prod.mk.injEq, Prod.mk.injEq] at hstate
  obtain ⟨hdrained, hdone, hgivenUp⟩ := hstate
  obtain ⟨row, hrow, hfinish⟩ := Option.bind_eq_some_iff.mp hdone
  obtain ⟨turns, hlength, hrun⟩ := run_of_after? hafter
  obtain ⟨_, hcompleted, _, hviolated, htotal⟩ :=
    deadlines_kept Exact.dataset_fresh Exact.topology_built
      Exact.dataset_physical Exact.network_physical hrun
        (hrun.physical Exact.service_physical)
  obtain ⟨_, htask⟩ := hcompleted ⟨0⟩ row ⟨9 / 2⟩ hrow hfinish
  rw [hgivenUp] at hviolated
  rw [← hviolated] at htotal
  exact ⟨turns, last, hlength, hrun, hdrained, htask, hviolated.symm, htotal⟩

end FogDispatch
