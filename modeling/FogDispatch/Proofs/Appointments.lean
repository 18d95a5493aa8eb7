import FogDispatch.Proofs.Exclusivity
import FogDispatch.Proofs.Isolation

/-!
# Appointments

A task that is placed has an appointment: it starts at a time that its decision
foresaw and is done after its running time on its node.  Episodes make
appointments and never move them, and they never change what tasks demand.
-/

namespace FogDispatch

variable {α σ : Type}

/-- What a task demands from the start. -/
structure Terms (α : Type) where
  arrival : Time α
  deadline : Time α
  length : α
  storage : α

def Task.terms {α : Type} (task : Task α) : Terms α :=
  ⟨task.arrival, task.deadline, task.length, task.storage⟩

/-- The demands of a task with its place and its start. -/
structure Slot (α : Type) where
  terms : Terms α
  node : Option NodeId
  start : Option (Time α)

def Task.slot {α : Type} (task : Task α) : Slot α :=
  ⟨task.terms, task.node, task.start⟩

namespace Topology

theorem node?_markIdle_of_reset {topology other : Topology α}
    (hreset : other.reset = topology.reset) (place : NodeId) :
    (other.node? place).map Node.markIdle =
      (topology.node? place).map Node.markIdle := by
  have hnodes := congrArg (·.node? place) hreset
  simpa only [Topology.reset, Topology.node?, List.getElem?_map] using hnodes

theorem exists_node_of_reset {topology other : Topology α}
    (hreset : other.reset = topology.reset) {place : NodeId} {node : Node α}
    (hnode : topology.node? place = some node) :
    ∃ after, other.node? place = some after ∧
      after.markIdle = node.markIdle := by
  have hmarked := node?_markIdle_of_reset hreset place
  rw [hnode, Option.map_some] at hmarked
  exact Option.map_eq_some_iff.mp hmarked

end Topology

theorem Context.slot_finished (ctx : Context α) (id : TaskId) (node : NodeId)
    (now : Time α) (other : TaskId) :
    ((ctx.finished id node now).task? other).map Task.slot =
      (ctx.task? other).map Task.slot := by
  rw [finished_task?]
  split
  next =>
    rw [Option.map_map]
    rfl
  next => rfl

theorem Node.runningTime_of_markIdle [Arith α] {node other : Node α}
    (hmarked : other.markIdle = node.markIdle) (length : α) :
    other.runningTime length = node.runningTime length :=
  congrArg (·.runningTime length) hmarked

variable [Arith α]

namespace Context

/-- A task is placed on a node from a start to the end of its running time. -/
structure Booked (ctx : Context α) (task : Task α) (place : NodeId)
    (start done : Time α) : Prop where
  node_eq : task.node = some place
  start_eq : task.start = some start
  span : ∃ node, ctx.topology.node? place = some node ∧
    done = start + node.runningTime task.length

theorem Booked.placed {ctx : Context α} {task : Task α} {place : NodeId}
    {start done : Time α} (hbooked : ctx.Booked task place start done) :
    task.node ≠ none := by
  rw [hbooked.node_eq]
  exact Option.some_ne_none place

theorem Booked.of_same {ctx other : Context α} {task after : Task α}
    {place : NodeId} {start done : Time α}
    (hbooked : ctx.Booked task place start done)
    (hslot : after.slot = task.slot)
    (hreset : other.topology.reset = ctx.topology.reset) :
    other.Booked after place start done := by
  obtain ⟨hnode, hstart, node, hplace, rfl⟩ := hbooked
  obtain ⟨hterms, hnode', hstart'⟩ := Slot.mk.inj hslot
  have hlength : after.length = task.length := congrArg Terms.length hterms
  obtain ⟨target, htarget, hmarked⟩ :=
    Topology.exists_node_of_reset hreset hplace
  refine ⟨hnode'.trans hnode, hstart'.trans hstart, target, htarget, ?_⟩
  rw [Node.runningTime_of_markIdle hmarked, hlength]

theorem Booked.unique {ctx : Context α} {task : Task α}
    {place place' : NodeId} {start start' done done' : Time α}
    (hbooked : ctx.Booked task place start done)
    (hother : ctx.Booked task place' start' done') :
    place' = place ∧ start' = start ∧ done' = done := by
  obtain ⟨hnode, hstart, node, hplace, rfl⟩ := hbooked
  obtain ⟨hnode', hstart', node', hplace', rfl⟩ := hother
  obtain rfl : place' = place := by simpa [hnode] using hnode'.symm
  obtain rfl : start' = start := by simpa [hstart] using hstart'.symm
  obtain rfl : node' = node := by simpa [hplace] using hplace'.symm
  exact ⟨rfl, rfl, rfl⟩

/-- No demand changes later and no appointment is moved. -/
structure Extends (ctx later : Context α) : Prop where
  network : later.network = ctx.network
  reset : later.topology.reset = ctx.topology.reset
  known : ∀ id task, later.task? id = some task →
    ∃ before, ctx.task? id = some before ∧ task.terms = before.terms
  booked : ∀ id before place start done, ctx.task? id = some before →
    ctx.Booked before place start done →
      ∃ task, later.task? id = some task ∧ later.Booked task place start done

namespace Extends

theorem of_slot {ctx later : Context α}
    (hnetwork : later.network = ctx.network)
    (hreset : later.topology.reset = ctx.topology.reset)
    (hslot : ∀ id, (later.task? id).map Task.slot =
      (ctx.task? id).map Task.slot) : ctx.Extends later := by
  refine ⟨hnetwork, hreset, ?_, ?_⟩
  · intro id task htask
    have hsame := hslot id
    rw [htask, Option.map_some] at hsame
    obtain ⟨before, hbefore, heq⟩ := Option.map_eq_some_iff.mp hsame.symm
    exact ⟨before, hbefore, (congrArg Slot.terms heq).symm⟩
  · intro id before place start done hbefore hbooked
    have hsame := hslot id
    rw [hbefore, Option.map_some] at hsame
    obtain ⟨task, htask, heq⟩ := Option.map_eq_some_iff.mp hsame
    exact ⟨task, htask, hbooked.of_same heq hreset⟩

theorem trans {first middle last : Context α} (hfirst : first.Extends middle)
    (hlast : middle.Extends last) : first.Extends last := by
  refine ⟨hlast.network.trans hfirst.network,
    hlast.reset.trans hfirst.reset, ?_, ?_⟩
  · intro id task htask
    obtain ⟨between, hbetween, hterms⟩ := hlast.known id task htask
    obtain ⟨before, hbefore, hterms'⟩ := hfirst.known id between hbetween
    exact ⟨before, hbefore, hterms.trans hterms'⟩
  · intro id before place start done hbefore hbooked
    obtain ⟨between, hbetween, hkept⟩ :=
      hfirst.booked id before place start done hbefore hbooked
    exact hlast.booked id between place start done hbetween hkept

theorem terms_eq {ctx later : Context α} (hextends : ctx.Extends later)
    {id : TaskId} {before after : Task α} (hbefore : ctx.task? id = some before)
    (hafter : later.task? id = some after) : after.terms = before.terms := by
  obtain ⟨earlier, hearlier, hsame⟩ := hextends.known id after hafter
  obtain rfl : before = earlier :=
    Option.some.inj (hbefore.symm.trans hearlier)
  exact hsame

end Extends

/-- A placement makes an appointment from the start that it foresees. -/
theorem booked_bound {ctx : Context α} (task : Task α) {node : Node α}
    (hnode : ctx.topology.node? node.id = some node) (now : Time α)
    (cost : Span α) :
    (ctx.bound task node now cost).Booked
      { task with
        node := some node.id
        decisionCost := cost
        start := some (ctx.startOn task node now cost) }
      node.id (ctx.startOn task node now cost)
      (ctx.startOn task node now cost + node.runningTime task.length) := by
  refine ⟨rfl, rfl, node.markBusy, ?_, rfl⟩
  rw [bound_node?, if_pos rfl, hnode, Option.map_some]

theorem extends_bound {ctx : Context α} {task : Task α}
    (htask : ctx.task? task.id = some task) (hplace : task.node = none)
    (node : Node α) (now : Time α) (cost : Span α) :
    ctx.Extends (ctx.bound task node now cost) := by
  have hreset : (ctx.bound task node now cost).topology.reset =
      ctx.topology.reset := Topology.reset_markBusy _ node.id
  refine ⟨rfl, hreset, ?_, ?_⟩
  · intro id row hrow
    rw [bound_task? htask] at hrow
    by_cases heq : task.id = id
    · subst id
      rw [if_pos rfl] at hrow
      obtain rfl := Option.some.inj hrow
      exact ⟨task, htask, rfl⟩
    · rw [if_neg heq] at hrow
      exact ⟨row, hrow, rfl⟩
  · intro id before place start done hbefore hbooked
    have hne : task.id ≠ id := by
      rintro rfl
      obtain rfl : task = before := by simpa [htask] using hbefore
      exact hbooked.placed hplace
    refine ⟨before, ?_, hbooked.of_same rfl hreset⟩
    rw [bound_task? htask, if_neg hne]
    exact hbefore

end Context

namespace Simulation

theorem heard_extends {sim popped : Simulation α} {ending : EndCondition α}
    {event : Event α} (hnext : sim.next? ending = some (event, popped)) :
    sim.context.Extends
      (popped.heard event.target event.message).context := by
  rcases heard_context hnext with hsame | ⟨id, node, _, hfinished⟩
  · rw [hsame]
    exact .of_slot rfl rfl fun _ => rfl
  · rw [hfinished]
    apply Context.Extends.of_slot
    · rfl
    · exact Topology.reset_markIdle _ node
    · exact sim.context.slot_finished id node popped.queue.now

theorem Books.consult_extends {sim : Simulation α}
    {policy : Policy (StateM σ) α} {decision : Option (Decision α)}
    {strategy : Strategy α} {ctx : Context α} {before after : σ}
    (hbooks : sim.Books)
    (hconsults : sim.gateway.strategy.Consults policy sim.gateway.pending
      sim.context sim.queue.now before decision strategy ctx after) :
    sim.context.Extends ctx := by
  have hsampled : ∀ answer,
      sim.context.Extends (sim.context.sampled sim.queue.now answer) := by
    intro answer
    apply Context.Extends.of_slot
    · exact sim.context.releaseFinished_network sim.queue.now
    · rw [Context.sampled_topology]
    · intro id
      rw [Context.sampled_task?]
  cases hconsults with
  | silent hoffers =>
      apply Context.Extends.of_slot
      · exact sim.context.releaseFinished_network sim.queue.now
      · rw [Context.releaseFinished_topology]
      · intro id
        rw [Context.releaseFinished_task?]
  | full hasked hfull => exact hsampled _
  | crowded hasked hnames hbusy hnone => exact hsampled _
  | rejected hasked hnames hbusy hidle => exact hsampled _
  | @dropped answer _ _ _ _ _ _ hasked hnames hidle hmissed hfeedback =>
      exact (hsampled answer).trans (.of_slot rfl rfl fun _ => rfl)
  | @assigned answer _ _ id place task node hasked hnames hidle hmeets
      hfeedback =>
      have htask : sim.context.task? id = some task := by
        simpa using hnames.task_eq
      obtain rfl := hbooks.ledger.numbered id task htask
      obtain ⟨_, _, _, _, _, hplace, _⟩ :=
        hbooks.ledger.pending_alone htask hnames.mem_pending
      have hbound := Context.extends_bound hnames.task_eq hplace node
        sim.queue.now answer.cost
      exact ((hsampled answer).trans hbound).trans
        (.of_slot rfl rfl fun _ => rfl)

end Simulation

namespace Moment

variable {policy : Policy (StateM σ) α} {ending : EndCondition α}
  {before after first last : Moment σ α} {turn : Turn α}
  {turns : List (Turn α)}

theorem Step.extends (hstep : before.Step policy ending turn after)
    (hbooks : before.sim.Books) :
    before.sim.context.Extends after.sim.context := by
  apply hstep.preserves_of_books
    (fun sim => before.sim.context.Extends sim.context) _ _ hbooks
  · intro event popped hnext
    exact Simulation.heard_extends hnext
  · intro sim decision strategy ctx service hsim hheard hconsults
    rw [Simulation.settled_context]
    exact hheard.trans (hsim.consult_extends hconsults)

theorem Run.extends (hrun : Run policy ending first turns last)
    (hbooks : first.sim.Books) :
    first.sim.context.Extends last.sim.context := by
  induction hrun with
  | done now => exact .of_slot rfl rfl fun _ => rfl
  | turn hstep _ ih =>
      exact (hstep.extends hbooks).trans (ih (hstep.books hbooks))

end Moment
end FogDispatch
