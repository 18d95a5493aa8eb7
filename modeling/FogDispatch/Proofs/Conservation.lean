import FogDispatch.Proofs.Punctuality

/-!
# No task is lost

Between any two events every task stands in exactly one of the five places of
the ledger, and the figures of the episode count the tasks in them.  When no
event is left, nothing runs any more: each task is completed, given up or still
waits at the gateway.
-/

namespace FogDispatch

theorem sum_set_succ (counts : List Nat) (index : Nat)
    (hindex : index < counts.length) :
    (counts.set index (counts[index] + 1)).sum = counts.sum + 1 := by
  induction counts generalizing index with
  | nil => simp at hindex
  | cons count rest ih =>
      cases index with
      | zero =>
          simp only [List.set_cons_zero, List.getElem_cons_zero, List.sum_cons]
          omega
      | succ index =>
          have hrest := ih index (by simpa using hindex)
          simp only [List.set_cons_succ, List.getElem_cons_succ, List.sum_cons]
          omega

theorem PriorityTally.total_bump (tally : PriorityTally) (p : Priority) :
    (tally.bump p).total = tally.total + 1 := by
  have hlow := p.one_le
  have hhigh := p.le_five
  have hlength : p.level - 1 < tally.toList.length := by
    rw [Vector.length_toList]
    omega
  have hcount : tally.count p = tally.toList[p.level - 1] := rfl
  have hbump : (tally.bump p).toList =
      tally.toList.set (p.level - 1) (tally.toList[p.level - 1] + 1) := by
    unfold bump
    rw [Vector.toList_set, hcount]
  change (tally.bump p).toList.sum = tally.toList.sum + 1
  rw [hbump, sum_set_succ]

variable {α σ : Type}

namespace Context

/-- The figures of the episode count its tasks; `number` is that of the next
decision. -/
structure Tally (ctx : Context α) (number : Nat) : Prop where
  rewarded : ctx.metrics.current.rewards.length = number
  decided : number = ctx.violated.length + ctx.running.length +
    ctx.metrics.current.completed
  completed : ctx.metrics.current.completed = ctx.released.length
  missed : ctx.metrics.current.totalViolations = ctx.violated.length

theorem Tally.givenUp {ctx : Context α} {number : Nat}
    (htally : ctx.Tally number) (task : Task α) (score : α) :
    ((ctx.givenUp task).measure (·.recordReward score)).Tally (number + 1) := by
  obtain ⟨hrewarded, hdecided, hcompleted, hmissed⟩ := htally
  constructor
  case rewarded =>
    change (ctx.metrics.current.rewards ++ [score]).length = number + 1
    rw [List.length_append, hrewarded, List.length_singleton]
  case decided =>
    change number + 1 = (ctx.violated ++ [task.id]).length +
      ctx.running.length + ctx.metrics.current.completed
    rw [List.length_append, List.length_singleton]
    omega
  case completed => exact hcompleted
  case missed =>
    change (ctx.metrics.current.violations.bump task.priority).total =
      (ctx.violated ++ [task.id]).length
    rw [PriorityTally.total_bump, List.length_append, List.length_singleton]
    exact congrArg (· + 1) hmissed

variable [Arith α]

theorem Tally.sweep {ctx : Context α} {number : Nat}
    (htally : ctx.Tally number)
    (hnumbered : ∀ id task, ctx.task? id = some task → task.id = id)
    (now : Time α) : (ctx.releaseFinished now).Tally number := by
  obtain ⟨hrewarded, hdecided, hcompleted, hmissed⟩ := htally
  obtain ⟨hreleased, hcount⟩ := releaseFinished_released now hnumbered
  have hkeeps := ctx.foldl_completionOf_keeps (ctx.doneBy now)
    ctx.metrics.current
  have hsplit : ctx.running.length = (ctx.doneBy now).length +
      (ctx.releaseFinished now).running.length := by
    rw [releaseFinished_running, doneBy]
    exact List.length_eq_length_filter_add _
  constructor
  case rewarded =>
    rw [releaseFinished_eq]
    exact (congrArg List.length hkeeps.2.2).trans hrewarded
  case decided =>
    rw [releaseFinished_violated, hcount]
    omega
  case completed =>
    rw [hreleased, hcount, List.length_append]
    omega
  case missed =>
    rw [releaseFinished_violated, releaseFinished_eq]
    exact (congrArg PriorityTally.total hkeeps.1).trans hmissed

theorem finishEpisode_finished (ctx : Context α) (clock : Time α) :
    (ctx.finishEpisode clock).metrics.finished = ctx.metrics.finished ++
      [(ctx.releaseFinished clock).metrics.current.close clock
        ctx.topology] := by
  have hearlier : (ctx.releaseFinished clock).metrics.finished =
      ctx.metrics.finished := by
    rw [releaseFinished_eq]
    rfl
  have htopology := ctx.releaseFinished_topology clock
  simp only [finishEpisode, RunMetrics.finishEpisode, hearlier, htopology]

theorem Tally.sampled {ctx : Context α} {number : Nat}
    (htally : ctx.Tally number)
    (hnumbered : ∀ id task, ctx.task? id = some task → task.id = id)
    (now : Time α) (answer : Answer α) :
    (ctx.sampled now answer).Tally number := by
  have hswept := htally.sweep hnumbered now
  exact ⟨hswept.rewarded, hswept.decided, hswept.completed, hswept.missed⟩

theorem Tally.bound {ctx : Context α} {number : Nat}
    (htally : ctx.Tally number) (task : Task α) (node : Node α)
    (now : Time α) (cost : Span α) (score : α) :
    ((ctx.bound task node now cost).measure
      (·.recordReward score)).Tally (number + 1) := by
  obtain ⟨hrewarded, hdecided, hcompleted, hmissed⟩ := htally
  constructor
  case rewarded =>
    change (ctx.metrics.current.rewards ++ [score]).length = number + 1
    rw [List.length_append, hrewarded, List.length_singleton]
  case decided =>
    change number + 1 = ctx.violated.length +
      (ctx.running ++ [task.id]).length + ctx.metrics.current.completed
    rw [List.length_append, List.length_singleton]
    omega
  case completed => exact hcompleted
  case missed => exact hmissed

end Context

namespace Simulation

def Tallied (sim : Simulation α) : Prop :=
  sim.context.Tally sim.gateway.strategy.number

/-- Every task stands in one of the five places, and the figures of the episode
count them. -/
structure Conserved (sim : Simulation α) : Prop where
  once : ∀ id, sim.presence id =
    if (sim.context.task? id).isSome then 1 else 0
  violated_nodup : sim.context.violated.Nodup
  running_nodup : sim.context.running.Nodup
  released_nodup : sim.context.released.Nodup
  rewarded : sim.context.metrics.current.rewards.length =
    sim.gateway.strategy.number
  decided : sim.gateway.strategy.number = sim.context.violated.length +
    sim.context.running.length + sim.context.metrics.current.completed

theorem Ledger.presence_le_one {sim : Simulation α} (hledger : sim.Ledger)
    (id : TaskId) : sim.presence id ≤ 1 := by
  rw [hledger.once]
  split <;> omega

theorem conserved_of_ledger {sim : Simulation α} (hledger : sim.Ledger)
    (htally : sim.Tallied) : sim.Conserved := by
  have hle := hledger.presence_le_one
  simp only [presence] at hle
  constructor
  case once => exact hledger.once
  case violated_nodup =>
    rw [List.nodup_iff_count_le_one]
    intro id
    have hid := hle id
    omega
  case running_nodup =>
    rw [List.nodup_iff_count_le_one]
    intro id
    have hid := hle id
    omega
  case released_nodup =>
    rw [List.nodup_iff_count_le_one]
    intro id
    have hid := hle id
    omega
  case rewarded => exact htally.rewarded
  case decided => exact htally.decided

/-! ## When no event is left -/

variable {sim : Simulation α}

theorem Ledger.perm_of_drained (hledger : sim.Ledger)
    (hdrained : sim.queue.future = []) :
    (sim.gateway.pending ++ sim.context.violated ++ sim.context.running ++
      sim.context.released).Perm (sim.context.tasks.map Task.id) := by
  rw [List.perm_iff_count]
  intro id
  have honce := hledger.once id
  rw [presence, messages_of_drained hdrained, List.count_nil,
    Nat.zero_add] at honce
  rw [List.count_append, List.count_append, List.count_append, honce,
    Dataset.count_id_eq]
  · rfl
  · intro index task htask
    exact hledger.numbered ⟨index⟩ task htask

theorem length_of_drained (hledger : sim.Ledger) (htally : sim.Tallied)
    (hdrained : sim.queue.future = []) :
    sim.context.tasks.length = sim.gateway.pending.length +
      sim.context.violated.length + sim.context.running.length +
        sim.context.metrics.current.completed := by
  have hlength := (hledger.perm_of_drained hdrained).length_eq
  have hcompleted := htally.completed
  simp only [List.length_append, List.length_map] at hlength
  omega

variable [Arith α]

theorem Books.running_of_drained (hbooks : sim.Books)
    (hpunctual : sim.Punctual) (hdrained : sim.queue.future = []) :
    (sim.context.releaseFinished sim.queue.now).running = [] := by
  rw [List.eq_nil_iff_forall_not_mem]
  intro id hid
  obtain ⟨place, hhosts⟩ := hbooks.hosts_of_running hpunctual hid
  rw [hbooks.hosts_of_drained hdrained] at hhosts
  cases hhosts

/-! ## The turns -/

theorem Tallied.hear {sim popped : Simulation α} {ending : EndCondition α}
    {event : Event α} (htally : sim.Tallied)
    (hnext : sim.next? ending = some (event, popped)) :
    (popped.heard event.target event.message).Tallied := by
  obtain ⟨hgateway, _, _⟩ := next?_eq_some hnext
  rw [Tallied, heard_strategy, hgateway]
  rcases heard_context hnext with hsame | ⟨id, node, _, hfinished⟩
  · rw [hsame]
    exact htally
  · rw [hfinished]
    exact ⟨htally.rewarded, htally.decided, htally.completed, htally.missed⟩

theorem Tallied.consult {sim : Simulation α} {policy : Policy (StateM σ) α}
    {decision : Option (Decision α)} {strategy : Strategy α}
    {ctx : Context α} {before after : σ} (htally : sim.Tallied)
    (hnumbered : ∀ id task, sim.context.task? id = some task → task.id = id)
    (hconsults : sim.gateway.strategy.Consults policy sim.gateway.pending
      sim.context sim.queue.now before decision strategy ctx after) :
    (sim.settled decision strategy ctx).Tallied := by
  rw [Tallied, settled_strategy, settled_context]
  have hsampled := fun answer =>
    Context.Tally.sampled htally hnumbered sim.queue.now answer
  cases hconsults with
  | silent hoffers => exact Context.Tally.sweep htally hnumbered _
  | full hasked hfull => exact hsampled _
  | crowded hasked hnames hbusy hnone => exact hsampled _
  | rejected hasked hnames hbusy hidle => exact hsampled _
  | dropped hasked hnames hidle hmissed hfeedback =>
      exact (hsampled _).givenUp _ _
  | assigned hasked hnames hidle hmeets hfeedback =>
      exact (hsampled _).bound _ _ _ _ _

end Simulation

namespace Moment

variable [Arith α] {policy : Policy (StateM σ) α} {ending : EndCondition α}

theorem Step.tallied {before after : Moment σ α} {turn : Turn α}
    (hstep : before.Step policy ending turn after)
    (hbooks : before.sim.Books) (htally : before.sim.Tallied) :
    after.sim.Tallied := by
  apply hstep.preserves_of_books Simulation.Tallied _ _ hbooks
  · intro event popped hnext
    exact htally.hear hnext
  · intro sim decision strategy ctx service hsim hheard hconsults
    exact hheard.consult hsim.ledger.numbered hconsults

theorem Run.tallied {first last : Moment σ α} {turns : List (Turn α)}
    (hrun : Run policy ending first turns last) (hbooks : first.sim.Books)
    (htally : first.sim.Tallied) : last.sim.Tallied := by
  apply hrun.invariant_of_books _ hbooks htally
  intro before turn after hbooks htally hstep
  exact hstep.tallied hbooks htally

theorem Run.length_tasks {first last : Moment σ α} {turns : List (Turn α)}
    (hrun : Run policy ending first turns last) :
    last.sim.context.tasks.length = first.sim.context.tasks.length := by
  induction hrun with
  | done now => rfl
  | turn hstep _ ih => exact ih.trans hstep.length_tasks

theorem start_tallied {gateway : Gateway α} {ctx : Context α} {episode : Nat}
    {dataset : Dataset α} {service : σ} :
    (start gateway ctx episode dataset service).sim.Tallied :=
  ⟨rfl, rfl, rfl, rfl⟩

end Moment

/-- Between any two events of an episode every task stands in exactly one of
the five places.  An episode that runs until no event is left closes with
nothing running, and every task is then completed, given up or unplaced. -/
theorem Moment.tasks_conserved {policy : Policy (StateM σ) Binary64}
    {gateway : Gateway Binary64} {ctx : Context Binary64} {episode : Nat}
    {dataset : Dataset Binary64} {service : σ}
    (hdataset : dataset.Fresh) (htopology : ctx.topology.Built) :
    (∀ ending turns now,
      Run policy ending (start gateway ctx episode dataset service) turns
        now → now.sim.Conserved) ∧
    ∀ allotted clock final left,
      (Episode.run allotted policy .drained gateway.reset
        (ctx.startEpisode episode dataset.jobs dataset.tasks)).run service =
          ((.ok clock, final), left) →
      (final.context.finishEpisode clock).running = [] ∧
      (∀ node ∈ (final.context.finishEpisode clock).topology.nodes,
        node.isIdle = true) ∧
      ∃ metrics, (final.context.finishEpisode clock).metrics.finished =
          final.context.metrics.finished ++ [metrics] ∧
        dataset.tasks.length = metrics.completed + metrics.totalViolations +
          final.gateway.unplaced := by
  constructor
  · intro ending turns now hrun
    exact Simulation.conserved_of_ledger
      (Run.books hdataset htopology hrun).ledger
      (hrun.tallied (start_books hdataset htopology) start_tallied)
  · intro allotted clock final left hepisode
    obtain ⟨turns, last, hrun, hnext, hfinal, rfl, _⟩ :=
      run_of_episode hepisode
    obtain rfl : final = last.sim := hfinal
    have hdrained : last.sim.queue.future = [] :=
      EventQueue.pop?_drained_eq_none (Simulation.next?_eq_none hnext)
    have hbooks : last.sim.Books := Run.books hdataset htopology hrun
    have hpunctual : last.sim.Punctual := Run.punctual hdataset hrun
    have htally := hrun.tallied (start_books hdataset htopology)
      start_tallied
    have htasks : last.sim.context.tasks.length = dataset.tasks.length :=
      hrun.length_tasks
    have hlength :=
      Simulation.length_of_drained hbooks.ledger htally hdrained
    have hrunning := hbooks.running_of_drained hpunctual hdrained
    have hswept := Context.Tally.sweep htally hbooks.ledger.numbered
      last.sim.queue.now
    have hdecided := hswept.decided
    rw [hrunning, List.length_nil, Nat.add_zero] at hdecided
    refine ⟨hrunning, ?_, _,
      last.sim.context.finishEpisode_finished last.sim.queue.now, ?_⟩
    · intro node hnode
      apply hbooks.idle_of_drained hdrained node
      rw [← last.sim.context.releaseFinished_topology last.sim.queue.now]
      exact hnode
    · have hmissed := hswept.missed
      have hbefore := htally.decided
      change dataset.tasks.length =
        (last.sim.context.releaseFinished
            last.sim.queue.now).metrics.current.completed +
          (last.sim.context.releaseFinished
            last.sim.queue.now).metrics.current.totalViolations +
          last.sim.gateway.pending.length
      omega

theorem Moment.sample_tasks_conserved :
    (∃ turns now, turns.length = 6 ∧
      Run Sample.service .drained Sample.first turns now ∧
      now.sim.Conserved) ∧
    ∃ clock final,
      (Episode.run 20 Sample.service .drained Sample.gateway.reset
        (Sample.context.startEpisode 0 Sample.dataset.jobs
          Sample.dataset.tasks)).run () = ((.ok clock, final), ()) ∧
      (final.context.finishEpisode clock).running = [] ∧
      (∀ node ∈ (final.context.finishEpisode clock).topology.nodes,
        node.isIdle = true) ∧
      ∃ metrics, (final.context.finishEpisode clock).metrics.finished =
          final.context.metrics.finished ++ [metrics] ∧
        2 = metrics.completed + metrics.totalViolations +
          final.gateway.unplaced := by
  have hreached :
      (Sample.first.after? Sample.service .drained 6).isSome = true := by
    decide +kernel
  have hconserved : (∀ ending turns now,
      Run Sample.service ending Sample.first turns now →
        now.sim.Conserved) ∧ _ :=
    tasks_conserved Sample.dataset_fresh Sample.topology_built
  obtain ⟨now, hafter⟩ := Option.isSome_iff_exists.mp hreached
  obtain ⟨turns, hlength, hrun⟩ := run_of_after? hafter
  obtain ⟨clock, final, hepisode, _⟩ := Sample.episode_ok
  exact ⟨⟨turns, now, hlength, hrun, hconserved.1 _ _ _ hrun⟩,
    clock, final, hepisode, hconserved.2 _ _ _ _ hepisode⟩

end FogDispatch
