import FogDispatch.Proofs.Attention
import FogDispatch.Proofs.Punctuality
import FogDispatch.Proofs.Roster

/-!
# No lost wake-up

A gateway that leaves a task waiting has something to wake it: a decision is
due, it is still deciding and has noted freed capacity, or a candidate is busy
and its completion is to come.  The only tasks it may forget are those that are
never admitted.  When no event is left no candidate is busy, so nothing else is
left waiting.
-/

namespace FogDispatch

variable {α σ : Type}

namespace Topology

def SomeBusy (topology : Topology α) : Prop :=
  ∃ node ∈ topology.candidates, node.isIdle = false

theorem someBusy_of_noneIdle {topology : Topology α}
    (hcandidates : topology.candidates ≠ [])
    (hnone : topology.anyCandidateIdle = false) : topology.SomeBusy := by
  obtain ⟨node, hnode⟩ := List.exists_mem_of_ne_nil _ hcandidates
  refine ⟨node, hnode, ?_⟩
  have hbusy := List.any_eq_false.mp hnone node hnode
  simpa using hbusy

end Topology

namespace Simulation

def Prompted (sim : Simulation α) : Prop :=
  .decisionDue ∈ sim.queue.messages ∨ sim.context.topology.SomeBusy

/-- While the gateway decides, a lack of capacity that it found is noted as
over, or it will be prompted.  While it is idle, it will be prompted for every
waiting task that may ever be admitted. -/
structure Vigilant (sim : Simulation α) : Prop where
  deciding : sim.gateway.state = .deciding → sim.gateway.allNodesBusy = true →
    sim.gateway.recheck = true ∨ sim.Prompted
  idle : sim.gateway.state = .idle → ∀ id ∈ sim.gateway.pending,
    ¬ sim.context.rules.Bars id → sim.Prompted

theorem vigilant_of_recheck {sim : Simulation α}
    (hstate : sim.gateway.state = .deciding)
    (hrecheck : sim.gateway.recheck = true) : sim.Vigilant := by
  constructor
  · intro _ _
    exact Or.inl hrecheck
  · intro hidle
    rw [hstate] at hidle
    cases hidle

theorem vigilant_of_idle {sim : Simulation α}
    (hstate : sim.gateway.state = .idle)
    (hprompted : ∀ id ∈ sim.gateway.pending,
      ¬ sim.context.rules.Bars id → sim.Prompted) : sim.Vigilant := by
  constructor
  · intro hdeciding
    rw [hstate] at hdeciding
    cases hdeciding
  · intro _
    exact hprompted

/-! ## Quiet messages -/

variable [Arith α] {sim popped : Simulation α} {ending : EndCondition α}
  {event : Event α}

theorem Prompted.next (hprompted : sim.Prompted)
    (hnext : sim.next? ending = some (event, popped))
    (hmessage : event.message ≠ .decisionDue) : popped.Prompted := by
  obtain ⟨_, hpopped, hpop⟩ := next?_eq_some hnext
  rcases hprompted with hdue | hbusy
  · left
    rw [EventQueue.pop?_messages hpop, List.mem_cons] at hdue
    exact hdue.resolve_left hmessage.symm
  · right
    rw [hpopped]
    exact hbusy

theorem Vigilant.next (hvigilant : sim.Vigilant)
    (hnext : sim.next? ending = some (event, popped))
    (hmessage : event.message ≠ .decisionDue) : popped.Vigilant := by
  obtain ⟨hgateway, hpopped, _⟩ := next?_eq_some hnext
  constructor
  · intro hstate hfull
    rw [hgateway] at hstate hfull ⊢
    rcases hvigilant.deciding hstate hfull with hrecheck | hprompted
    · exact Or.inl hrecheck
    · exact Or.inr (hprompted.next hnext hmessage)
  · intro hstate id hid hbars
    rw [hgateway] at hstate hid
    rw [hpopped] at hbars
    exact (hvigilant.idle hstate id hid hbars).next hnext hmessage

theorem Vigilant.schedule (hvigilant : sim.Vigilant) (delay : Span α)
    (target : Target) (message : Message) :
    Vigilant { sim with queue := sim.queue.schedule delay target message } := by
  have hkept : sim.Prompted → Prompted
      { sim with queue := sim.queue.schedule delay target message } := by
    rintro (hdue | hbusy)
    · exact Or.inl (EventQueue.mem_messages_schedule.mpr (Or.inr hdue))
    · exact Or.inr hbusy
  constructor
  · intro hstate hfull
    exact (hvigilant.deciding hstate hfull).imp_right hkept
  · intro hstate id hid hbars
    exact hkept (hvigilant.idle hstate id hid hbars)

theorem Vigilant.hear_quiet (hvigilant : sim.Vigilant) (hwatched : sim.Watched)
    (hcandidates : popped.context.topology.candidates ≠ [])
    (hnext : sim.next? ending = some (event, popped)) {message : Message}
    (hmessage : event.message = message) {after : Simulation α}
    (hears : popped.Hears message after false) : after.Vigilant := by
  have hpopped := hvigilant.next hnext
  rw [hmessage] at hpopped
  generalize hprompted : false = prompted at hears
  cases hears with
  | arrival id =>
      have hkept := hpopped (by simp)
      refine ⟨hkept.deciding, ?_⟩
      -- an idle gateway stays quiet only if every candidate is busy
      intro hstate _ _ _
      right
      apply Topology.someBusy_of_noneIdle hcandidates
      have hidle : popped.gateway.state = .idle := hstate
      rw [hidle, beq_self_eq_true, Bool.true_and] at hprompted
      exact hprompted.symm
  | wake =>
      obtain ⟨hstate, _⟩ := hwatched.next_deciding hnext hmessage
      obtain ⟨hgateway, _, _⟩ := next?_eq_some hnext
      rw [← hgateway] at hstate
      rw [eq_comm, Bool.or_eq_false_iff, Bool.not_eq_false'] at hprompted
      obtain ⟨hfull, hrecheck⟩ := hprompted
      apply vigilant_of_idle rfl
      intro _ _ _
      rcases (hpopped (by simp)).deciding hstate hfull with hnoted | hprompted
      · rw [hrecheck] at hnoted
        cases hnoted
      · exact hprompted
  | due hstate => cases hprompted
  | overdue hstate => exact vigilant_of_recheck hstate rfl
  | submission id node delay =>
      exact (hpopped (by simp)).schedule delay .gateway _
  | lost id node => exact hpopped (by simp)
  | completion id node hstate =>
      apply vigilant_of_idle
      · exact hstate
      · intro _ _ _
        exact Or.inl (EventQueue.mem_messages_schedule.mpr (Or.inl rfl))
  | interruption id node hstate => exact vigilant_of_recheck hstate rfl

/-! ## Consultations -/

/-- A busy candidate is what keeps a task running after a sweep. -/
theorem Books.someBusy_of_running (hbooks : sim.Books)
    (hpunctual : sim.Punctual) {id : TaskId}
    (hid : id ∈ (sim.context.releaseFinished sim.queue.now).running) :
    sim.context.topology.SomeBusy := by
  obtain ⟨place, hhosts⟩ := hbooks.hosts_of_running hpunctual hid
  obtain ⟨node, hnode, hcandidate⟩ :=
    hbooks.occupancy.candidate place id hhosts
  have hmem : node ∈ sim.context.topology.nodes := List.mem_of_getElem? hnode
  refine ⟨node, List.mem_filter.mpr ⟨hmem, hcandidate⟩, ?_⟩
  exact (hbooks.occupancy.busy_iff place node hnode).mpr ⟨id, hhosts⟩

/-- When nothing can be offered, every waiting task that may ever be admitted
waits for a running one. -/
theorem Books.someBusy_of_silent (hbooks : sim.Books)
    (hpunctual : sim.Punctual) (hroster : sim.context.Roster)
    (hoffers : sim.gateway.strategy.offers sim.gateway.pending sim.context
      sim.queue.now = [])
    {id : TaskId} (hid : id ∈ sim.gateway.pending)
    (hbars : ¬ sim.context.rules.Bars id) :
    sim.context.topology.SomeBusy := by
  have hrefused : (sim.context.releaseFinished sim.queue.now).admits id =
      false := by
    by_contra hadmitted
    have hmem : id ∈ sim.gateway.pending.filter
        (sim.context.releaseFinished sim.queue.now).admits :=
      List.mem_filter.mpr ⟨hid, by simpa using hadmitted⟩
    rw [Strategy.offers_eq_nil.mp hoffers] at hmem
    cases hmem
  have hpresent : 0 < sim.presence id := by
    have hcount := List.count_pos_iff.mpr hid
    rw [presence]
    omega
  obtain ⟨task, htask⟩ := hbooks.ledger.task_of_presence hpresent
  have hswept := hroster.sweep hbooks.ledger.numbered sim.queue.now
  rw [← sim.context.releaseFinished_rules sim.queue.now] at hbars
  obtain ⟨other, hother⟩ := Context.running_of_refused hswept
    (by simpa using htask) hbars hrefused
  exact hbooks.someBusy_of_running hpunctual hother

/-- A consultation leaves the gateway vigilant, as long as the service finds no
capacity only while a candidate is busy. -/
theorem vigilant_of_consults {policy : Policy (StateM σ) α}
    {decision : Option (Decision α)} {strategy : Strategy α}
    {ctx : Context α} {before after : σ} (hbooks : sim.Books)
    (hpunctual : sim.Punctual) (hroster : sim.context.Roster)
    (hidle : sim.gateway.state = .idle)
    (hpatient : ∀ answer middle, sim.gateway.strategy.Asked policy
      sim.gateway.pending sim.context sim.queue.now before answer middle →
        answer.isNoCapacity = true → sim.context.topology.SomeBusy)
    (hconsults : sim.gateway.strategy.Consults policy sim.gateway.pending
      sim.context sim.queue.now before decision strategy ctx after) :
    (sim.settled decision strategy ctx).Vigilant := by
  have hfull : ∀ {strategy ctx cost},
      Topology.SomeBusy (Context.topology ctx) →
      (sim.settled (some ⟨.noCapacity, cost⟩) strategy ctx).Vigilant :=
    fun hbusy => ⟨fun _ _ => Or.inr (Or.inr hbusy), fun hstate => nomatch hstate⟩
  have hmoved : ∀ {strategy ctx decision},
      Decision.isNoCapacity decision = false →
      (sim.settled (some decision) strategy ctx).Vigilant := by
    intro strategy ctx decision hcapacity
    refine ⟨?_, fun hstate => nomatch hstate⟩
    intro _ hnone
    have hnone' : decision.isNoCapacity = true := hnone
    rw [hcapacity] at hnone'
    cases hnone'
  cases hconsults with
  | silent hoffers =>
      apply vigilant_of_idle
      · exact hidle
      · intro id hid hbars
        right
        rw [settled_context, Context.releaseFinished_rules] at hbars
        rw [settled_context, Context.releaseFinished_topology]
        exact hbooks.someBusy_of_silent hpunctual hroster hoffers hid hbars
  | full hasked hnone =>
      apply hfull
      rw [Context.sampled_topology]
      exact hpatient _ _ hasked hnone
  | @crowded answer _ id place task node hasked hnames hbusy hnone =>
      apply hfull
      rw [Context.sampled_topology]
      obtain ⟨_, _, hcandidate⟩ :=
        hnames.node_candidate hbooks.occupancy.numbered
      exact ⟨node, hcandidate, hbusy⟩
  | rejected hasked hnames hbusy hsome => exact hmoved rfl
  | dropped hasked hnames hfree hmissed hfeedback => exact hmoved rfl
  | assigned hasked hnames hfree hmeets hfeedback => exact hmoved rfl

end Simulation

/-! ## Runs -/

namespace Moment

variable [Arith α] {policy : Policy (StateM σ) α} {ending : EndCondition α}

/-- Whenever the service finds no capacity, some candidate is busy. -/
def Patient (policy : Policy (StateM σ) α) (ending : EndCondition α)
    (first : Moment σ α) : Prop :=
  ∀ sim answer, Asks policy ending first sim answer →
    answer.isNoCapacity = true → sim.context.topology.SomeBusy

theorem Patient.step {first next : Moment σ α} {turn : Turn α}
    (hpatient : Patient policy ending first)
    (hstep : first.Step policy ending turn next) :
    Patient policy ending next :=
  fun sim answer hasks => hpatient sim answer (hasks.turn hstep)

/-- What the vigilance of a gateway rests on. -/
structure Attentive (now : Moment σ α) : Prop where
  watched : now.sim.Watched
  punctual : now.sim.Punctual
  roster : now.sim.context.Roster
  candidates : now.sim.context.topology.candidates ≠ []
  vigilant : now.sim.Vigilant

/-- When no event is left, only tasks that are never admitted still wait. -/
theorem Attentive.bars_of_drained {now : Moment σ α}
    (hattentive : now.Attentive) (hbooks : now.sim.Books)
    (hdrained : now.sim.queue.future = []) :
    ∀ id ∈ now.sim.gateway.pending, now.sim.context.rules.Bars id := by
  intro id hid
  have hempty : now.sim.queue.messages = [] :=
    Simulation.messages_of_drained hdrained
  have hidle : now.sim.gateway.state = .idle := by
    have hwatched := hattentive.watched
    rw [Simulation.Watched, hempty, List.count_nil] at hwatched
    cases hstate : now.sim.gateway.state with
    | idle => rfl
    | deciding =>
        rw [hstate, if_pos rfl] at hwatched
        cases hwatched
  by_contra hbars
  rcases hattentive.vigilant.idle hidle id hid hbars with
    hdue | ⟨node, hnode, hbusy⟩
  · rw [hempty] at hdue
    cases hdue
  · have hfree := hbooks.idle_of_drained hdrained node
      (List.mem_filter.mp hnode).1
    rw [hbusy] at hfree
    cases hfree

/-- What is never admitted in an episode is known from its dataset. -/
theorem start_bars {gateway : Gateway α} {ctx : Context α} {episode : Nat}
    {dataset : Dataset α} {service : σ} (hdataset : dataset.Fresh)
    {id : TaskId}
    (hbars : (start gateway ctx episode dataset
      service).sim.context.rules.Bars id) :
    ctx.respectJobs = true ∧ ∃ task ∈ dataset.tasks, task.id = id ∧
      ∃ job, (JobTable.ofList dataset.jobs).find? task.job = some job ∧
        job.maxParallel = 0 := by
  obtain ⟨hrespect, owner, howner, hlimit⟩ := hbars
  obtain ⟨task, htask, rfl⟩ := Option.map_eq_some_iff.mp howner
  obtain ⟨job, hjob, hzero⟩ := Option.map_eq_some_iff.mp hlimit
  have hid := (Simulation.start_task? hdataset htask).1
  exact ⟨hrespect, task, List.mem_of_getElem? htask, hid, job, hjob, hzero⟩

variable [Std.TransCmp (Arith.order : α → α → Ordering)]

theorem Step.attentive {before after : Moment σ α} {turn : Turn α}
    (hstep : before.Step policy ending turn after)
    (hbooks : before.sim.Books) (hpatient : Patient policy ending before)
    (hattentive : before.Attentive) : after.Attentive := by
  have hlength := Topology.length_candidates_of_reset hstep.topology_reset
  refine ⟨hstep.watched hbooks hattentive.watched,
    hstep.punctual hattentive.punctual,
    hstep.roster hbooks hattentive.roster, ?_, ?_⟩
  · rw [← List.length_pos_iff, hlength, List.length_pos_iff]
    exact hattentive.candidates
  · cases hstep with
    | @quiet event popped hnext hquiet =>
        obtain ⟨_, hpopped, _⟩ := Simulation.next?_eq_some hnext
        obtain ⟨haddressed, _⟩ := hbooks.ledger.addressed_next hnext
        have hears := Simulation.hears_of_addressed popped haddressed
        rw [hquiet] at hears
        apply hattentive.vigilant.hear_quiet hattentive.watched _ hnext rfl
          hears
        rw [hpopped]
        exact hattentive.candidates
    | @consulted event popped sim decision strategy ctx service hnext
        hprompts hheard hdecide =>
        have hidle : sim.gateway.state = .idle := by
          rw [hheard]
          exact Simulation.idle_of_prompts _ _ _ hprompts
        have hroster : sim.context.Roster := by
          rw [hheard]
          exact Simulation.heard_roster hattentive.roster hnext
        have hbooks' : sim.Books := by
          rw [hheard]
          exact hbooks.hear hnext
        have hpunctual : sim.Punctual := by
          rw [hheard]
          exact hattentive.punctual.hear hnext
        apply Simulation.vigilant_of_consults hbooks' hpunctual hroster hidle
          _ (Strategy.decide_ok hdecide)
        intro answer middle hasked hfull
        exact hpatient sim answer ⟨[], before, event, popped, middle,
          .done before, hnext, hprompts, hheard, hasked⟩ hfull

theorem Run.attentive {first last : Moment σ α} {turns : List (Turn α)}
    (hrun : Run policy ending first turns last) (hbooks : first.sim.Books)
    (hpatient : Patient policy ending first) (hattentive : first.Attentive) :
    last.Attentive := by
  induction hrun with
  | done now => exact hattentive
  | turn hstep _ ih =>
      exact ih (hstep.books hbooks) (hpatient.step hstep)
        (hstep.attentive hbooks hpatient hattentive)

theorem start_attentive {gateway : Gateway α} {ctx : Context α}
    {episode : Nat} {dataset : Dataset α} {service : σ}
    (hdataset : dataset.Fresh) (htopology : ctx.topology.Built) :
    (start gateway ctx episode dataset service).Attentive := by
  refine ⟨start_watched gateway ctx episode dataset service,
    Simulation.start_punctual hdataset episode, start_roster hdataset, ?_, ?_⟩
  · have hcandidates : ctx.topology.reset.candidates ≠ [] := by
      rw [Topology.candidates_reset]
      simpa using htopology.candidates_ne_nil
    exact hcandidates
  · apply Simulation.vigilant_of_idle rfl
    intro id hid
    cases hid

end Moment

/-- An episode that runs until no event is left, against a service that finds
no capacity only while a candidate is busy, leaves nothing waiting but tasks of
jobs that may run no task at all, and these only if jobs are respected. -/
theorem Moment.no_lost_wakeup {policy : Policy (StateM σ) Binary64}
    {gateway : Gateway Binary64} {ctx : Context Binary64} {episode : Nat}
    {dataset : Dataset Binary64} {service left : σ} {allotted : Nat}
    {clock : Time Binary64} {final : Simulation Binary64}
    (hdataset : dataset.Fresh) (htopology : ctx.topology.Built)
    (hpatient : Patient policy .drained
      (start gateway ctx episode dataset service))
    (hepisode : (Episode.run allotted policy .drained gateway.reset
      (ctx.startEpisode episode dataset.jobs dataset.tasks)).run service =
        ((.ok clock, final), left)) :
    (∀ id ∈ final.gateway.pending, ctx.respectJobs = true ∧
      ∃ task ∈ dataset.tasks, task.id = id ∧
        ∃ job, (JobTable.ofList dataset.jobs).find? task.job = some job ∧
          job.maxParallel = 0) ∧
    (ctx.respectJobs = false ∨ (∀ job ∈ dataset.jobs, 1 ≤ job.maxParallel) →
      final.gateway.unplaced = 0) := by
  obtain ⟨turns, last, hrun, hnext, hfinal, _⟩ := run_of_episode hepisode
  obtain rfl : final = last.sim := hfinal
  have hdrained : last.sim.queue.future = [] :=
    EventQueue.pop?_drained_eq_none (Simulation.next?_eq_none hnext)
  have hstart : (start gateway ctx episode dataset service).sim.Books :=
    start_books hdataset htopology
  have hbooks : last.sim.Books := Run.books hdataset htopology hrun
  have hattentive : last.Attentive :=
    Run.attentive hrun hstart hpatient (start_attentive hdataset htopology)
  have hrules := Run.rules hrun hstart
  have hwaiting : ∀ id ∈ last.sim.gateway.pending, ctx.respectJobs = true ∧
      ∃ task ∈ dataset.tasks, task.id = id ∧
        ∃ job, (JobTable.ofList dataset.jobs).find? task.job = some job ∧
          job.maxParallel = 0 := by
    intro id hid
    have hbars := hattentive.bars_of_drained hbooks hdrained id hid
    rw [hrules] at hbars
    exact start_bars hdataset hbars
  refine ⟨hwaiting, ?_⟩
  intro hopen
  rw [Gateway.unplaced, List.length_eq_zero_iff,
    List.eq_nil_iff_forall_not_mem]
  intro id hid
  obtain ⟨hrespect, task, _, _, job, hjob, hzero⟩ := hwaiting id hid
  rcases hopen with hfree | hroom
  · rw [hfree] at hrespect
    cases hrespect
  · have hmem := JobTable.mem_ofList (JobTable.mem_of_find? hjob)
    have hone := hroom job hmem
    omega

/-! ## A service that refuses

The last number of a question tells whether the last candidate is busy.  A service
that refuses for no other reason is patient. -/

theorem Strategy.getLast?_view [Arith α] {ctx : Context α}
    {front : List (Node α)} {last : Node α}
    (hcandidates : ctx.topology.candidates = front ++ [last])
    (strategy : Strategy α) (pending : List TaskId) (now : Time α) :
    (strategy.view pending ctx now).getLast? =
      some (if last.isIdle then Arith.zero else Arith.one) := by
  rw [view, observation, Context.releaseFinished_topology, hcandidates,
    List.flatMap_append, ← List.cons_append, ← List.append_assoc,
    List.getLast?_append]
  rfl

theorem Moment.Asks.candidates_ne_nil [Arith α] {policy : Policy (StateM σ) α}
    {ending : EndCondition α} {gateway : Gateway α} {ctx : Context α}
    {episode : Nat} {dataset : Dataset α} {service : σ} {sim : Simulation α}
    {answer : Answer α} (htopology : ctx.topology.Built)
    (hasks : Asks policy ending (start gateway ctx episode dataset service) sim
      answer) : sim.context.topology.candidates ≠ [] := by
  obtain ⟨_, _, _, _, _, hrun, hnext, _, rfl, _⟩ := hasks
  have hreset := (Simulation.heard_topology_reset hnext).trans
    (hrun.topology_reset.trans (Topology.reset_reset ctx.topology))
  rw [← List.length_pos_iff, Topology.length_candidates_of_reset hreset,
    List.length_pos_iff]
  exact htopology.candidates_ne_nil

namespace Sample

/-- Every answer takes a second.  It names the first candidate unless the last number
marks a candidate as busy. -/
def cautious : Policy (StateM Unit) Binary64 where
  ask
    | .askDecision _ state =>
      pure (.ok (if state.getLast? = some Arith.zero then "1,0d0" else "1,0d-1"))
    | _ => pure (.ok "ok")

theorem read_choice (costs : CostModel Binary64) :
    ∃ answer, Answer.read costs "1,0d0" = .ok answer ∧
      answer.isNoCapacity = false := ⟨_, rfl, rfl⟩

theorem read_refusal (costs : CostModel Binary64) :
    ∃ answer, Answer.read costs "1,0d-1" = .ok answer ∧
      answer.isNoCapacity = true := ⟨_, rfl, rfl⟩

theorem cautious_patient (ending : EndCondition Binary64) :
    Moment.Patient cautious ending first := by
  intro sim answer hasks hfull
  obtain ⟨front, last, hcandidates⟩ := (List.eq_nil_or_concat _).resolve_left
    (hasks.candidates_ne_nil topology_built)
  rw [List.concat_eq_append] at hcandidates
  obtain ⟨_, _, _, _, _, _, _, _, _, hasked⟩ := hasks
  obtain ⟨raw, hask, hread⟩ := hasked.answered
  refine ⟨last, by simp [hcandidates], ?_⟩
  by_contra hidle
  have hzero := Strategy.getLast?_view hcandidates sim.gateway.strategy
    sim.gateway.pending sim.queue.now
  rw [if_pos (by simpa using hidle)] at hzero
  have hraw : raw = "1,0d0" := by
    cases hask
    exact if_pos hzero
  obtain ⟨choice, hchoice, hnames⟩ := read_choice sim.gateway.strategy.costs
  rw [hraw, hchoice] at hread
  obtain rfl := Except.ok.inj hread
  rw [hnames] at hfull
  cases hfull

/-- The second task arrives while the candidate is busy, and the service refuses
it. -/
theorem cautious_refuses : ∃ sim answer,
    Moment.Asks cautious .drained first sim answer ∧
      answer.isNoCapacity = true := by
  have hseen : ((first.after? cautious .drained 2).bind fun now =>
      (now.sim.next? .drained).map fun (event, popped) =>
        let sim := popped.heard event.target event.message
        (popped.prompts event.target event.message,
          sim.gateway.strategy.offers sim.gateway.pending sim.context
            sim.queue.now,
          (sim.gateway.strategy.view sim.gateway.pending sim.context
            sim.queue.now).getLast?)) =
      some (true, [⟨1⟩], some Arith.one) := by
    decide +kernel
  obtain ⟨now, hafter, hnext⟩ := Option.bind_eq_some_iff.mp hseen
  obtain ⟨⟨event, popped⟩, hpopped, hstate⟩ := Option.map_eq_some_iff.mp hnext
  simp only [Prod.mk.injEq] at hstate
  obtain ⟨hprompts, hoffers, hbusy⟩ := hstate
  obtain ⟨turns, _, hrun⟩ := Moment.run_of_after? hafter
  obtain ⟨answer, hread, hfull⟩ := read_refusal
    (popped.heard event.target event.message).gateway.strategy.costs
  refine ⟨_, answer, ⟨turns, now, event, popped, (), hrun, hpopped, hprompts,
    rfl, ?_, "1,0d-1", ?_, hread⟩, hfull⟩
  · rw [hoffers]
    exact List.cons_ne_nil _ _
  · simp only [cautious, hbusy]
    rfl

theorem cautious_episode_ok : ∃ clock final,
    (Episode.run 20 cautious .drained gateway.reset
      (context.startEpisode 0 dataset.jobs dataset.tasks)).run () =
        ((.ok clock, final), ()) ∧ final.queue.future = [] :=
  Episode.ok_of_seen (by decide +kernel)

end Sample

/-- The service refuses the second task of the small episode while the first one
runs, and in the end none is left waiting. -/
theorem Moment.sample_no_lost_wakeup :
    Sample.dataset.Fresh ∧ Sample.context.topology.Built ∧
    Patient Sample.cautious .drained Sample.first ∧
    (∃ sim answer, Asks Sample.cautious .drained Sample.first sim answer ∧
      answer.isNoCapacity = true) ∧
    ∃ clock final,
      (Episode.run 20 Sample.cautious .drained Sample.gateway.reset
        (Sample.context.startEpisode 0 Sample.dataset.jobs
          Sample.dataset.tasks)).run () = ((.ok clock, final), ()) ∧
      final.gateway.unplaced = 0 := by
  have hroom : ∀ job ∈ Sample.dataset.jobs, 1 ≤ job.maxParallel := by
    decide
  obtain ⟨clock, final, hepisode, _⟩ := Sample.cautious_episode_ok
  have hunplaced := (no_lost_wakeup Sample.dataset_fresh Sample.topology_built
    (Sample.cautious_patient .drained) hepisode).2 (Or.inr hroom)
  exact ⟨Sample.dataset_fresh, Sample.topology_built,
    Sample.cautious_patient .drained, Sample.cautious_refuses, clock, final,
    hepisode, hunplaced⟩

end FogDispatch
