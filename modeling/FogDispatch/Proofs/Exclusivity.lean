import FogDispatch.Proofs.Books

/-!
# Exclusive nodes

Between any two events a node is busy exactly while one task is placed on it
and unfinished, and that task has exactly one event under way.  What an episode
has noted about a task it never takes back.  Both follow from the books, and
neither depends on what the service answers or on how clocks are compared.
-/

namespace FogDispatch

variable {α σ : Type}

namespace Context

/-- Every mark of a task is still there later. -/
def Keeps (ctx later : Context α) : Prop :=
  ∀ id task, ctx.task? id = some task →
    ∃ after, later.task? id = some after ∧
      (∀ node, task.node = some node → after.node = some node) ∧
      (∀ time, task.start = some time → after.start = some time) ∧
      (∀ time, task.finish = some time → after.finish = some time)

theorem Keeps.of_same {ctx later : Context α}
    (htask : ∀ id, later.task? id = ctx.task? id) : ctx.Keeps later := by
  intro id task hid
  exact ⟨task, by rw [htask, hid], fun _ h => h, fun _ h => h, fun _ h => h⟩

theorem Keeps.trans {first middle last : Context α}
    (hfirst : first.Keeps middle) (hlast : middle.Keeps last) :
    first.Keeps last := by
  intro id task hid
  obtain ⟨between, hbetween, hnode, hstart, hfinish⟩ := hfirst id task hid
  obtain ⟨after, hafter, hnode', hstart', hfinish'⟩ :=
    hlast id between hbetween
  exact ⟨after, hafter, fun node h => hnode' node (hnode node h),
    fun time h => hstart' time (hstart time h),
    fun time h => hfinish' time (hfinish time h)⟩

theorem Keeps.finished {ctx : Context α} {id : TaskId} {node : NodeId}
    (hdone : ctx.hosts node id = true) (now : Time α) :
    ctx.Keeps (ctx.finished id node now) := by
  obtain ⟨hosted, hhosted, _, hopen⟩ := hosts_iff.mp hdone
  intro other task htask
  rw [finished_task?]
  by_cases heq : id = other
  · subst other
    obtain rfl : hosted = task := by simpa [hhosted] using htask
    rw [if_pos rfl, hhosted, Option.map_some]
    refine ⟨_, rfl, fun _ h => h, fun _ h => h, ?_⟩
    intro time hfinish
    rw [hopen] at hfinish
    cases hfinish
  · rw [if_neg heq]
    exact ⟨task, htask, fun _ h => h, fun _ h => h, fun _ h => h⟩

theorem Keeps.bound [Arith α] {ctx : Context α} {task : Task α}
    (htask : ctx.task? task.id = some task) (hplace : task.node = none)
    (hstart : task.start = none) (node : Node α) (now : Time α)
    (cost : Span α) : ctx.Keeps (ctx.bound task node now cost) := by
  intro other before hbefore
  rw [bound_task? htask]
  by_cases heq : task.id = other
  · subst other
    obtain rfl : task = before := by simpa [htask] using hbefore
    rw [if_pos rfl]
    refine ⟨_, rfl, ?_, ?_, fun _ h => h⟩
    · intro place hnode
      rw [hplace] at hnode
      cases hnode
    · intro time hnode
      rw [hstart] at hnode
      cases hnode
  · rw [if_neg heq]
    exact ⟨before, hbefore, fun _ h => h, fun _ h => h, fun _ h => h⟩

end Context

namespace Simulation

/-- What it means for a node that it runs one task at a time. -/
structure Exclusive (sim : Simulation α) (place : NodeId) (node : Node α) :
    Prop where
  busy : node.isIdle = false ↔ ∃! id, sim.context.hosts place id = true
  flight : ∀ id, sim.context.hosts place id = true →
    sim.underway id place = 1
  free : node.isIdle = true → ∀ id, sim.context.hosts place id = false ∧
    sim.underway id place = 0
  target : node.kind = .gateway → node.isIdle = true

theorem Books.exclusive {sim : Simulation α} (hbooks : sim.Books)
    {place : NodeId} {node : Node α}
    (hnode : sim.context.topology.node? place = some node) :
    sim.Exclusive place node := by
  obtain ⟨hledger, hoccupancy⟩ := hbooks
  have hbusy := hoccupancy.busy_iff place node hnode
  have hidle : node.isIdle = true → ∀ id,
      sim.context.hosts place id = false := by
    intro hidle id
    by_contra hhosts
    have hnot := hbusy.mpr ⟨id, by simpa using hhosts⟩
    rw [hidle] at hnot
    cases hnot
  constructor
  case busy =>
    rw [hbusy]
    constructor
    · rintro ⟨id, hid⟩
      exact ⟨id, hid, fun other hother =>
        hoccupancy.single place other id hother hid⟩
    · rintro ⟨id, hid, _⟩
      exact ⟨id, hid⟩
  case flight =>
    intro id hid
    rw [hledger.flight, if_pos hid]
  case free =>
    intro hfree id
    refine ⟨hidle hfree id, ?_⟩
    rw [hledger.flight, hidle hfree id, if_neg (by simp)]
  case target =>
    intro hkind
    by_contra hnot
    obtain ⟨id, hid⟩ := hbusy.mp (by simpa using hnot)
    obtain ⟨other, hother, hcandidate⟩ := hoccupancy.candidate place id hid
    obtain rfl : node = other := by simpa [hnode] using hother
    rw [Node.isCandidate, hkind] at hcandidate
    cases hcandidate

variable [Arith α] {sim popped : Simulation α} {ending : EndCondition α}
  {event : Event α}

theorem Books.hear_keeps (hbooks : sim.Books)
    (hnext : sim.next? ending = some (event, popped)) :
    sim.context.Keeps
      (popped.heard event.target event.message).context := by
  rcases heard_context hnext with hsame | ⟨id, node, hmessage, hfinished⟩
  · rw [hsame]
    exact Context.Keeps.of_same fun _ => rfl
  · rw [hfinished]
    apply Context.Keeps.finished
    exact hbooks.ledger.hosts_of_flight hnext (Or.inr hmessage)

theorem Books.consult_keeps {policy : Policy (StateM σ) α}
    {decision : Option (Decision α)} {strategy : Strategy α}
    {ctx : Context α} {before after : σ} (hbooks : sim.Books)
    (hconsults : sim.gateway.strategy.Consults policy sim.gateway.pending
      sim.context sim.queue.now before decision strategy ctx after) :
    sim.context.Keeps ctx := by
  have hsampled : ∀ answer,
      sim.context.Keeps (sim.context.sampled sim.queue.now answer) := by
    intro answer
    apply Context.Keeps.of_same
    simp
  cases hconsults with
  | silent hoffers =>
      apply Context.Keeps.of_same
      simp
  | full hasked hfull => exact hsampled _
  | crowded hasked hnames hbusy hnone => exact hsampled _
  | rejected hasked hnames hbusy hidle => exact hsampled _
  | @dropped answer _ _ _ _ _ _ hasked hnames hidle hmissed hfeedback =>
      exact (hsampled answer).trans (Context.Keeps.of_same fun _ => rfl)
  | @assigned answer _ _ id place task node hasked hnames hidle hmeets
      hfeedback =>
      have htask : sim.context.task? id = some task := by
        simpa using hnames.task_eq
      obtain rfl := hbooks.ledger.numbered id task htask
      obtain ⟨_, _, _, _, _, hplace, _⟩ :=
        hbooks.ledger.pending_alone htask hnames.mem_pending
      have hstart : task.start = none := by
        have hstarted := hbooks.ledger.started task.id task htask
        rw [hplace] at hstarted
        simpa using hstarted
      have hbound := Context.Keeps.bound hnames.task_eq hplace hstart node
        sim.queue.now answer.cost
      exact ((hsampled answer).trans hbound).trans
        (Context.Keeps.of_same fun _ => rfl)

end Simulation

namespace Moment

variable [Arith α] {policy : Policy (StateM σ) α} {ending : EndCondition α}

theorem Step.keeps {before after : Moment σ α} {turn : Turn α}
    (hstep : before.Step policy ending turn after)
    (hbooks : before.sim.Books) :
    before.sim.context.Keeps after.sim.context := by
  apply hstep.preserves_of_books
    (fun sim => before.sim.context.Keeps sim.context) _ _ hbooks
  · intro event popped hnext
    exact hbooks.hear_keeps hnext
  · intro sim decision strategy ctx service hsim hheard hconsults
    rw [Simulation.settled_context]
    exact hheard.trans (hsim.consult_keeps hconsults)

theorem Run.keeps {first last : Moment σ α} {turns : List (Turn α)}
    (hrun : Run policy ending first turns last) (hbooks : first.sim.Books) :
    first.sim.context.Keeps last.sim.context := by
  induction hrun with
  | done now => exact Context.Keeps.of_same fun _ => rfl
  | turn hstep _ ih =>
      exact (hstep.keeps hbooks).trans (ih (hstep.books hbooks))

/-- Between any two events of an episode every node runs one task at a time,
and the marks of a task stay as they are. -/
theorem nodes_exclusive {gateway : Gateway α} {ctx : Context α}
    {episode : Nat} {dataset : Dataset α} {service : σ}
    {turns : List (Turn α)} {now : Moment σ α}
    (hdataset : dataset.Fresh) (htopology : ctx.topology.Built)
    (hrun : Run policy ending (start gateway ctx episode dataset service)
      turns now) :
    (∀ place node, now.sim.context.topology.node? place = some node →
      now.sim.Exclusive place node) ∧
    ∀ more later, Run policy ending now more later →
      now.sim.context.Keeps later.sim.context := by
  have hbooks := Run.books hdataset htopology hrun
  constructor
  · intro place node hnode
    exact hbooks.exclusive hnode
  · intro more later hlater
    exact hlater.keeps hbooks

/-- After three events the first task is on its way to the only node and the
second one waits. -/
theorem sample_nodes_exclusive :
    ∃ turns now, turns.length = 3 ∧
      Run Sample.service .drained Sample.first turns now ∧
      (now.sim.context.topology.node? ⟨0⟩).map Node.isIdle = some false ∧
      (∀ place node, now.sim.context.topology.node? place = some node →
        now.sim.Exclusive place node) ∧
      ∀ more later, Run Sample.service .drained now more later →
        now.sim.context.Keeps later.sim.context := by
  have hbusy : ((Sample.first.after? Sample.service .drained 3).map fun now =>
      (now.sim.context.topology.node? ⟨0⟩).map Node.isIdle) =
        some (some false) := by
    decide +kernel
  obtain ⟨now, hafter, hnode⟩ := Option.map_eq_some_iff.mp hbusy
  obtain ⟨turns, hlength, hrun⟩ := run_of_after? hafter
  exact ⟨turns, now, hlength, hrun, hnode,
    nodes_exclusive Sample.dataset_fresh Sample.topology_built hrun⟩

end Moment
end FogDispatch
