import FogDispatch.Proofs.Ledger
import FogDispatch.Proofs.Loading

/-!
# The books of an episode

The ledger and the occupancy of the nodes belong together: a submission needs
the node of its task and a completion frees it.  Both hold before the first
event of every episode and every turn keeps them, so they hold between any two
events, whatever the service answers.
-/

namespace FogDispatch

variable {α σ : Type}

namespace Simulation

/-- The ledger and the occupancy of the nodes. -/
structure Books (sim : Simulation α) : Prop where
  ledger : sim.Ledger
  occupancy : sim.context.Occupancy

/-! ## When no event is left -/

variable {sim : Simulation α}

theorem messages_of_drained (hdrained : sim.queue.future = []) :
    sim.queue.messages = [] := by
  rw [EventQueue.messages, hdrained, List.map_nil]

theorem Books.hosts_of_drained (hbooks : sim.Books)
    (hdrained : sim.queue.future = []) (place : NodeId) (id : TaskId) :
    sim.context.hosts place id = false := by
  have hflight := hbooks.ledger.flight id place
  rw [underway, messages_of_drained hdrained, List.count_nil,
    List.count_nil] at hflight
  by_contra hhosts
  rw [if_pos (by simpa using hhosts)] at hflight
  cases hflight

theorem Books.idle_of_drained (hbooks : sim.Books)
    (hdrained : sim.queue.future = []) :
    ∀ node ∈ sim.context.topology.nodes, node.isIdle = true := by
  intro node hnode
  obtain ⟨index, hindex⟩ := List.mem_iff_getElem?.mp hnode
  by_contra hbusy
  obtain ⟨id, hid⟩ := (hbooks.occupancy.busy_iff ⟨index⟩ node hindex).mp
    (by simpa using hbusy)
  rw [hbooks.hosts_of_drained hdrained] at hid
  cases hid

end Simulation

variable [Arith α]

/-! ## The start -/

namespace Episode

theorem foldl_push_messages (tasks : List (Task α)) (queue : EventQueue α) :
    (tasks.foldl (fun queue task =>
        queue.push task.arrival .gateway (.taskArrival task.id))
      queue).messages.Perm
      (tasks.map (fun task => Message.taskArrival task.id) ++
        queue.messages) := by
  induction tasks generalizing queue with
  | nil => exact List.Perm.refl _
  | cons task rest ih =>
      have hpush := queue.push_messages_perm task.arrival .gateway
        (.taskArrival task.id)
      exact (ih _).trans ((hpush.append_left _).trans List.perm_middle)

theorem arrivals_messages (tasks : List (Task α)) :
    (arrivals tasks).messages.Perm
      (tasks.map fun task => .taskArrival task.id) := by
  have hfold := foldl_push_messages tasks EventQueue.empty
  have hempty : (EventQueue.empty : EventQueue α).messages = [] := rfl
  rw [hempty, List.append_nil] at hfold
  exact hfold

theorem count_arrivals (tasks : List (Task α)) (id : TaskId) :
    (arrivals tasks).messages.count (.taskArrival id) =
      (tasks.map Task.id).count id := by
  have hmap : (tasks.map fun task => Message.taskArrival task.id) =
      (tasks.map Task.id).map Message.taskArrival := by
    rw [List.map_map]
    rfl
  rw [(arrivals_messages tasks).count_eq, hmap]
  apply List.count_map_of_injective
  intro one other hsame
  exact Message.taskArrival.inj hsame

theorem count_arrivals_of_ne (tasks : List (Task α)) {message : Message}
    (hmessage : ∀ id, message ≠ .taskArrival id) :
    (arrivals tasks).messages.count message = 0 := by
  rw [List.count_eq_zero, (arrivals_messages tasks).mem_iff]
  intro hmem
  obtain ⟨task, _, rfl⟩ := List.mem_map.mp hmem
  exact hmessage task.id rfl

theorem foldl_push_addressed (tasks : List (Task α)) {queue : EventQueue α}
    (hqueue : ∀ event ∈ queue.future, event.Addressed) :
    ∀ event ∈ (tasks.foldl (fun queue task =>
        queue.push task.arrival .gateway (.taskArrival task.id))
      queue).future, event.Addressed := by
  induction tasks generalizing queue with
  | nil => exact hqueue
  | cons task rest ih =>
      exact ih (addressed_push hqueue task.arrival fun _ _ => rfl)

end Episode

namespace Moment

/-- The moment before the first event of an episode. -/
def start (gateway : Gateway α) (ctx : Context α) (episode : Nat)
    (dataset : Dataset α) (service : σ) : Moment σ α :=
  ⟨Episode.initial gateway.reset
    (ctx.startEpisode episode dataset.jobs dataset.tasks), service⟩

end Moment

namespace Simulation

variable {gateway : Gateway α} {ctx : Context α} {dataset : Dataset α}

theorem start_task? {id : TaskId} {task : Task α} {episode : Nat}
    (hdataset : dataset.Fresh)
    (htask : (ctx.startEpisode episode dataset.jobs dataset.tasks).task? id =
      some task) : task.id = id ∧ task.Untouched := by
  have hmem : dataset.tasks[id.index]? = some task := htask
  exact ⟨hdataset.id_eq id.index task hmem,
    hdataset.numbered.untouched task (List.mem_of_getElem? hmem)⟩

theorem start_hosts {episode : Nat} (hdataset : dataset.Fresh)
    (place : NodeId) (id : TaskId) :
    (ctx.startEpisode episode dataset.jobs dataset.tasks).hosts place id =
      false := by
  by_contra hhosts
  obtain ⟨task, htask, hnode, _⟩ :=
    Context.hosts_iff.mp (by simpa using hhosts)
  rw [(start_task? hdataset htask).2.node] at hnode
  cases hnode

theorem start_presence (hdataset : dataset.Fresh) (episode : Nat) (id : TaskId) :
    (Episode.initial gateway.reset
      (ctx.startEpisode episode dataset.jobs dataset.tasks)).presence id =
        if (dataset.tasks[id.index]?).isSome then 1 else 0 := by
  change (Episode.arrivals dataset.tasks).messages.count _ + 0 + 0 + 0 + 0 = _
  rw [Episode.count_arrivals, Dataset.count_id_eq hdataset.id_eq]
  rfl

theorem start_underway (episode : Nat) (id : TaskId) (place : NodeId) :
    (Episode.initial gateway.reset
      (ctx.startEpisode episode dataset.jobs dataset.tasks)).underway id place =
        0 := by
  change (Episode.arrivals dataset.tasks).messages.count _ +
    (Episode.arrivals dataset.tasks).messages.count _ = 0
  rw [Episode.count_arrivals_of_ne _ (by simp),
    Episode.count_arrivals_of_ne _ (by simp)]

theorem start_ledger (hdataset : dataset.Fresh) (episode : Nat) :
    (Episode.initial gateway.reset
      (ctx.startEpisode episode dataset.jobs dataset.tasks)).Ledger := by
  constructor
  case addressed =>
    exact Episode.foldl_push_addressed dataset.tasks (by simp [EventQueue.empty])
  case numbered =>
    intro id task htask
    exact (start_task? hdataset htask).1
  case once => exact start_presence hdataset episode
  case placed =>
    intro id task htask
    rw [(start_task? hdataset htask).2.node]
    rfl
  case started =>
    intro id task htask
    rw [(start_task? hdataset htask).2.node,
      (start_task? hdataset htask).2.start]
    rfl
  case unplaced =>
    intro id task htask _
    exact (start_task? hdataset htask).2.finish
  case unreleased =>
    intro id task _ _
    rfl
  case flight =>
    intro id place
    have hhosts : (Episode.initial gateway.reset (ctx.startEpisode episode
        dataset.jobs dataset.tasks)).context.hosts place id = false :=
      start_hosts hdataset place id
    rw [start_underway, hhosts, if_neg Bool.false_ne_true]

theorem start_occupancy (hdataset : dataset.Fresh)
    (htopology : ctx.topology.Built) (episode : Nat) :
    (ctx.startEpisode episode dataset.jobs dataset.tasks).Occupancy := by
  constructor
  case numbered =>
    intro id node hnode
    exact (htopology.node? hnode).1
  case busy_iff =>
    intro place node hnode
    have hidle := (htopology.node? hnode).2
    simp [hidle, start_hosts hdataset]
  case single =>
    intro place id other hhosts
    rw [start_hosts hdataset] at hhosts
    cases hhosts
  case candidate =>
    intro place id hhosts
    rw [start_hosts hdataset] at hhosts
    cases hhosts

/-! ## The turns -/

variable {sim popped : Simulation α} {ending : EndCondition α}
  {event : Event α}

/-- Only a completion changes the context before a consultation. -/
theorem heard_context (hnext : sim.next? ending = some (event, popped)) :
    (popped.heard event.target event.message).context = sim.context ∨
      ∃ id node, event.message = .taskFinished id node ∧
        (popped.heard event.target event.message).context =
          sim.context.finished id node popped.queue.now := by
  obtain ⟨_, hpopped, _⟩ := next?_eq_some hnext
  rw [← hpopped]
  cases event.target with
  | datacenter id =>
      left
      cases event.message with
      | taskSubmit task node =>
          simp only [heard, runOnDatacenter]
          split <;> rfl
      | taskArrival task => rfl
      | gatewayWake => rfl
      | decisionDue => rfl
      | taskFinished task node => rfl
  | gateway =>
      cases event.message with
      | taskFinished task node =>
          exact Or.inr ⟨task, node, rfl, onFinished_context popped task node⟩
      | taskArrival task => exact Or.inl rfl
      | gatewayWake => exact Or.inl rfl
      | decisionDue =>
          left
          simp only [heard]
          split <;> rfl
      | taskSubmit task node => exact Or.inl rfl

theorem heard_length_tasks (hnext : sim.next? ending = some (event, popped)) :
    (popped.heard event.target event.message).context.tasks.length =
      sim.context.tasks.length := by
  rcases heard_context hnext with hsame | ⟨id, node, _, hfinished⟩
  · rw [hsame]
  · rw [hfinished]
    exact List.length_modify ..

theorem heard_topology_reset
    (hnext : sim.next? ending = some (event, popped)) :
    (popped.heard event.target event.message).context.topology.reset =
      sim.context.topology.reset := by
  rcases heard_context hnext with hsame | ⟨id, node, _, hfinished⟩
  · rw [hsame]
  · rw [hfinished]
    exact Topology.reset_markIdle _ node

theorem Books.hear (hbooks : sim.Books)
    (hnext : sim.next? ending = some (event, popped)) :
    (popped.heard event.target event.message).Books := by
  refine ⟨hbooks.ledger.hear hbooks.occupancy hnext, ?_⟩
  rcases heard_context hnext with hsame | ⟨id, node, hmessage, hfinished⟩
  · rw [hsame]
    exact hbooks.occupancy
  · rw [hfinished]
    apply hbooks.occupancy.finished
    exact hbooks.ledger.hosts_of_flight hnext (Or.inr hmessage)

theorem Books.consult {policy : Policy (StateM σ) α}
    {decision : Option (Decision α)} {strategy : Strategy α}
    {ctx : Context α} {before after : σ} (hbooks : sim.Books)
    (hconsults : sim.gateway.strategy.Consults policy sim.gateway.pending
      sim.context sim.queue.now before decision strategy ctx after) :
    (sim.settled decision strategy ctx).Books := by
  have hnumbered := hbooks.occupancy.numbered
  refine ⟨hbooks.ledger.consult hnumbered hconsults, ?_⟩
  rw [settled_context]
  have hsampled : ∀ answer,
      (sim.context.sampled sim.queue.now answer).Occupancy := by
    intro answer
    apply hbooks.occupancy.of_same
    · simp
    · simp
  cases hconsults with
  | silent hoffers =>
      apply hbooks.occupancy.of_same
      · simp
      · simp
  | full hasked hfull => exact hsampled _
  | crowded hasked hnames hbusy hnone => exact hsampled _
  | rejected hasked hnames hbusy hidle => exact hsampled _
  | @dropped answer _ _ _ _ _ _ hasked hnames hidle hmissed hfeedback =>
      exact (hsampled answer).of_same rfl fun _ => rfl
  | @assigned answer _ _ id place task node hasked hnames hidle hmeets
      hfeedback =>
      have htask := hnames.task_eq
      have htask' : sim.context.task? id = some task := by simpa using htask
      obtain rfl := hbooks.ledger.numbered id task htask'
      obtain ⟨_, _, _, _, _, hplace, hopen⟩ :=
        hbooks.ledger.pending_alone htask' hnames.mem_pending
      obtain ⟨rfl, _, hcandidate⟩ := hnames.node_candidate hnumbered
      have hbound := (hsampled answer).bound htask hplace hopen
        hnames.node_eq hidle (List.mem_filter.mp hcandidate).2
        sim.queue.now answer.cost
      exact hbound.of_same rfl fun _ => rfl

end Simulation

theorem Strategy.Consults.length_tasks {policy : Policy (StateM σ) α}
    {strategy next : Strategy α} {pending : List TaskId}
    {ctx after : Context α} {now : Time α} {before left : σ}
    {decision : Option (Decision α)}
    (hconsults : strategy.Consults policy pending ctx now before decision next
      after left) : after.tasks.length = ctx.tasks.length := by
  have hswept : (ctx.releaseFinished now).tasks.length = ctx.tasks.length :=
    congrArg List.length (ctx.releaseFinished_tasks now)
  cases hconsults with
  | silent hoffers => exact hswept
  | full hasked hfull => exact hswept
  | crowded hasked hnames hbusy hnone => exact hswept
  | rejected hasked hnames hbusy hidle => exact hswept
  | dropped hasked hnames hidle hmissed hfeedback => exact hswept
  | assigned hasked hnames hidle hmeets hfeedback =>
      exact (List.length_modify ..).trans hswept

theorem Strategy.Consults.topology_reset {policy : Policy (StateM σ) α}
    {strategy next : Strategy α} {pending : List TaskId}
    {ctx after : Context α} {now : Time α} {before left : σ}
    {decision : Option (Decision α)}
    (hconsults : strategy.Consults policy pending ctx now before decision next
      after left) : after.topology.reset = ctx.topology.reset := by
  have hswept : (ctx.releaseFinished now).topology.reset =
      ctx.topology.reset :=
    congrArg Topology.reset (ctx.releaseFinished_topology now)
  cases hconsults with
  | silent hoffers => exact hswept
  | full hasked hfull => exact hswept
  | crowded hasked hnames hbusy hnone => exact hswept
  | rejected hasked hnames hbusy hidle => exact hswept
  | dropped hasked hnames hidle hmissed hfeedback => exact hswept
  | @assigned answer _ _ id place task node hasked hnames hidle hmeets
      hfeedback =>
      change ((ctx.sampled now answer).topology.markBusy node.id).reset = _
      rw [Topology.reset_markBusy]
      exact hswept

namespace Moment

variable {policy : Policy (StateM σ) α} {ending : EndCondition α}

theorem Step.books {before after : Moment σ α} {turn : Turn α}
    (hstep : before.Step policy ending turn after)
    (hbooks : before.sim.Books) : after.sim.Books := by
  apply hstep.preserves Simulation.Books
  · intro event popped hnext
    exact hbooks.hear hnext
  · intro sim decision strategy ctx service hheard _ hconsults
    exact hheard.consult hconsults

/-- What the books carry through a turn holds after the turn. -/
theorem Step.preserves_of_books {before after : Moment σ α} {turn : Turn α}
    (Good : Simulation α → Prop)
    (hheard : ∀ event popped, before.sim.next? ending = some (event, popped) →
      Good (popped.heard event.target event.message))
    (hsettled : ∀ sim decision strategy ctx service, sim.Books → Good sim →
      sim.gateway.strategy.Consults policy sim.gateway.pending sim.context
        sim.queue.now before.service decision strategy ctx service →
      Good (sim.settled decision strategy ctx))
    (hstep : before.Step policy ending turn after)
    (hbooks : before.sim.Books) : Good after.sim := by
  have hboth := hstep.preserves fun sim => sim.Books ∧ Good sim
  refine (hboth ?_ ?_).2
  · intro event popped hnext
    exact ⟨hbooks.hear hnext, hheard event popped hnext⟩
  · intro sim decision strategy ctx service hsim _ hconsults
    exact ⟨hsim.1.consult hconsults,
      hsettled sim decision strategy ctx service hsim.1 hsim.2 hconsults⟩

theorem Step.length_tasks {before after : Moment σ α} {turn : Turn α}
    (hstep : before.Step policy ending turn after) :
    after.sim.context.tasks.length = before.sim.context.tasks.length := by
  apply hstep.preserves fun sim =>
    sim.context.tasks.length = before.sim.context.tasks.length
  · intro event popped hnext
    exact Simulation.heard_length_tasks hnext
  · intro sim decision strategy ctx service hheard _ hconsults
    rw [Simulation.settled_context, hconsults.length_tasks, hheard]

/-- No turn changes a node but for what it runs. -/
theorem Step.topology_reset {before after : Moment σ α} {turn : Turn α}
    (hstep : before.Step policy ending turn after) :
    after.sim.context.topology.reset =
      before.sim.context.topology.reset := by
  apply hstep.preserves fun sim =>
    sim.context.topology.reset = before.sim.context.topology.reset
  · intro event popped hnext
    exact Simulation.heard_topology_reset hnext
  · intro sim decision strategy ctx service hheard _ hconsults
    rw [Simulation.settled_context, hconsults.topology_reset, hheard]

theorem Run.topology_reset {first last : Moment σ α} {turns : List (Turn α)}
    (hrun : Run policy ending first turns last) :
    last.sim.context.topology.reset = first.sim.context.topology.reset := by
  induction hrun with
  | done now => rfl
  | turn hstep _ ih => exact ih.trans hstep.topology_reset

/-- What every turn keeps while the books hold is kept by every run. -/
theorem Run.invariant_of_books {Good : Moment σ α → Prop}
    (hkeeps : ∀ before turn after, before.sim.Books → Good before →
      before.Step policy ending turn after → Good after)
    {first last : Moment σ α} {turns : List (Turn α)}
    (hrun : Run policy ending first turns last) (hbooks : first.sim.Books)
    (hfirst : Good first) : Good last := by
  induction hrun with
  | done now => exact hfirst
  | turn hstep _ ih =>
      exact ih (hstep.books hbooks) (hkeeps _ _ _ hbooks hfirst hstep)

theorem start_books {gateway : Gateway α} {ctx : Context α} {episode : Nat}
    {dataset : Dataset α} {service : σ} (hdataset : dataset.Fresh)
    (htopology : ctx.topology.Built) :
    (start gateway ctx episode dataset service).sim.Books :=
  ⟨Simulation.start_ledger hdataset episode,
    Simulation.start_occupancy hdataset htopology episode⟩

theorem Run.books {gateway : Gateway α} {ctx : Context α} {episode : Nat}
    {dataset : Dataset α} {service : σ} {turns : List (Turn α)}
    {last : Moment σ α} (hdataset : dataset.Fresh)
    (htopology : ctx.topology.Built)
    (hrun : Run policy ending (start gateway ctx episode dataset service)
      turns last) : last.sim.Books :=
  hrun.invariant (fun _ _ _ hgood hstep => hstep.books hgood)
    (start_books hdataset htopology)

end Moment

omit [Arith α] in
/-- An episode that gives a clock ends as can be seen from its clock and its last
simulation. -/
theorem Episode.ok_of_seen
    {result : (Except Fault (Time α) × Simulation α) × Unit}
    {Seen : Time α → Simulation α → Prop}
    (hseen : ∃ clock ∈ result.1.1.toOption, Seen clock result.1.2) :
    ∃ clock final, result = ((.ok clock, final), ()) ∧ Seen clock final := by
  obtain ⟨⟨fault | ended, final⟩, left⟩ := result
  · obtain ⟨clock, hclock, _⟩ := hseen
    cases hclock
  · obtain ⟨clock, hclock, hfinal⟩ := hseen
    obtain rfl : ended = clock := Option.some.inj hclock
    exact ⟨ended, final, rfl, hfinal⟩

/-! ## A small episode

Two tasks of one job arrive while a single cloud node is there, so the second
one has to wait for the first. -/

namespace Sample

def whole (n : Nat) : Binary64 := Arith.ofNat n

def device : NodeSpec Binary64 :=
  ⟨whole 10, none, whole 8, whole 8, whole 2, whole 1⟩

def plan : TopologyPlan Binary64 := ⟨"", 1, device, 0, [], device⟩

def topology : Topology Binary64 := Topology.ofPlanUnchecked plan

def task (index arrival : Nat) : FogDispatch.Task Binary64 :=
  ⟨⟨index⟩, ⟨0⟩, index, default, ⟨whole arrival⟩, ⟨whole 100⟩, whole 5,
    whole 1, whole 1, none, Span.zero, none, none⟩

def dataset : Dataset Binary64 :=
  ⟨"sample", [Job.fresh ⟨0⟩ 2 []], [task 0 1, task 1 2]⟩

def context : Context Binary64 :=
  Context.fresh topology
    ⟨whole 1, whole 1, whole 1, whole 1, topology.cloudDatacenter⟩ true

def gateway : Gateway Binary64 :=
  Gateway.fresh (Strategy.fresh .placement ⟨whole 1, whole 1, true⟩)

/-- Every answer takes a second and names the first candidate. -/
def service : Policy (StateM Unit) Binary64 := ⟨fun _ => pure (.ok "1,0d0")⟩

def first : Moment Unit Binary64 := Moment.start gateway context 0 dataset ()

theorem dataset_fresh : dataset.Fresh := by decide

theorem topology_built : context.topology.Built := by
  have hplan : Topology.ofPlan plan = .ok topology := by rfl
  exact Topology.built_of_ofPlan hplan

theorem episode_ok : ∃ clock final,
    (Episode.run 20 service .drained gateway.reset
      (context.startEpisode 0 dataset.jobs dataset.tasks)).run () =
        ((.ok clock, final), ()) ∧ final.queue.future = [] :=
  Episode.ok_of_seen (by decide +kernel)

end Sample
end FogDispatch
