import FogDispatch.Proofs.Breakdowns
import FogDispatch.Proofs.GatewayEnergy
import FogDispatch.Proofs.Rulings

/-!
# The signs of rewards

A reward tells how a decision came out: it is a bonus when the task is placed
and a penalty when the task is given up, and never more than the weight of the
task either way.  The formula alone does not say so.  It takes that no task is
decided on before it arrives, so that an execution that meets the deadline fits
the window of its task.
-/

namespace FogDispatch

/-! ## The formula -/

section

variable {priority : Priority} {running window : Span ℚ}

theorem Priority.weight_eq (priority : Priority) :
    (priority.weight : ℚ) = priority.level / 5 := rfl

theorem Priority.weight_nonneg (priority : Priority) :
    0 ≤ (priority.weight : ℚ) := by
  rw [weight_eq]
  positivity

theorem usedShare_eq (running window : Span ℚ) :
    usedShare running window =
      if 0 < window.value then running.value / window.value else 1 := by
  simp [usedShare, Arith.less, Arith.zero, Arith.one, Arith.ofNat]

theorem usedShare_nonneg (hrunning : 0 ≤ running.value) :
    0 ≤ usedShare running window := by
  rw [usedShare_eq]
  split
  next hwindow => exact div_nonneg hrunning hwindow.le
  next => exact zero_le_one

/-- An execution that fits its window uses at most all of it. -/
theorem usedShare_le_one (hfits : running.value ≤ window.value) :
    usedShare running window ≤ 1 := by
  rw [usedShare_eq]
  split
  next hwindow => exact (div_le_one hwindow).mpr hfits
  next => exact le_refl _

theorem reward_of_missed (hrunning : 0 ≤ running.value) :
    reward priority running window true ∈
      Set.Icc (-(priority.weight : ℚ)) 0 := by
  have hweight := priority.weight_nonneg
  have hshare : 0 ≤ min (usedShare running window) 1 :=
    le_min (usedShare_nonneg hrunning) zero_le_one
  have hwhole : min (usedShare running window) 1 ≤ 1 := min_le_right _ _
  have hreward : reward priority running window true =
      -(priority.weight * min (usedShare running window) 1) := by
    rw [← Arith.smaller_eq_min, ← neg_mul]
    rfl
  rw [hreward]
  exact ⟨neg_le_neg (mul_le_of_le_one_right hweight hwhole),
    neg_nonpos.mpr (mul_nonneg hweight hshare)⟩

theorem reward_of_met (hrunning : 0 ≤ running.value)
    (hfits : running.value ≤ window.value) :
    reward priority running window false ∈
      Set.Icc 0 (priority.weight : ℚ) := by
  have hweight := priority.weight_nonneg
  have hshare : 0 ≤ usedShare running window := usedShare_nonneg hrunning
  have hwhole : usedShare running window ≤ 1 := usedShare_le_one hfits
  have hreward : reward priority running window false =
      priority.weight * (1 - usedShare running window) := by
    simp [reward, Arith.one, Arith.ofNat]
  rw [hreward]
  exact ⟨mul_nonneg hweight (by linarith),
    mul_le_of_le_one_right hweight (by linarith)⟩

end

/-! ## What a decision is rewarded with -/

/-- The score of a decision on one of the tasks has the sign of its outcome and
is at most the weight of the task. -/
def Outcome.Signed (tasks : List (Task ℚ)) (outcome : Outcome ℚ)
    (score : ℚ) : Prop :=
  match outcome with
  | .assigned id _ _ => ∃ task, tasks[id.index]? = some task ∧
      score ∈ Set.Icc 0 ((task.priority.level : ℚ) / 5)
  | .dropped id => ∃ task, tasks[id.index]? = some task ∧
      score ∈ Set.Icc (-((task.priority.level : ℚ) / 5)) 0
  | .rejected _ | .noCapacity => False

section

variable {α σ : Type}

/-- Whether a decision takes its task out of the queue. -/
def Outcome.moves (outcome : Outcome α) : Bool :=
  match outcome with
  | .assigned _ _ _ | .dropped _ => true
  | .rejected _ | .noCapacity => false

/-- What became of the decided task, if the turn decided on one. -/
def Turn.moved? (turn : Turn α) : Option (Outcome α) :=
  (turn.decision?.map Decision.outcome).filter Outcome.moves

def Context.rewards (ctx : Context α) : List α :=
  ctx.metrics.current.rewards

/-- A task without the marks that an episode puts on it. -/
def Task.bare [Arith α] (task : Task α) : Task α :=
  { task with
    node := none
    decisionCost := Span.zero
    start := none
    finish := none }

variable [Arith α]

theorem EpisodeMetrics.recordCompletion_rewards (metrics : EpisodeMetrics α)
    (task : Task α) :
    (metrics.recordCompletion task).rewards = metrics.rewards := by
  unfold recordCompletion
  split <;> rfl

namespace Context

@[simp] theorem releaseFinished_rewards (ctx : Context α) (now : Time α) :
    (ctx.releaseFinished now).rewards = ctx.rewards :=
  releaseFinished_leaves EpisodeMetrics.recordCompletion_rewards ctx now

theorem sampled_rewards (ctx : Context α) (now : Time α)
    (answer : Answer α) : (ctx.sampled now answer).rewards = ctx.rewards :=
  ctx.releaseFinished_rewards now

theorem bare_modifyTask (ctx : Context α) (id other : TaskId)
    {change : Task α → Task α}
    (hchange : ∀ task, (change task).bare = task.bare) :
    ((ctx.modifyTask id change).task? other).map Task.bare =
      (ctx.task? other).map Task.bare := by
  rw [task?_modifyTask]
  split
  next =>
    rw [Option.map_map]
    exact congrArg (Option.map · _) (funext hchange)
  next => rfl

end Context

namespace Strategy

variable {policy : Policy (StateM σ) α} {strategy next : Strategy α}
  {pending : List TaskId} {ctx after : Context α} {now : Time α}
  {before left : σ} {decision : Option (Decision α)}

theorem Consults.bare
    (hconsults : strategy.Consults policy pending ctx now before decision next
      after left) (id : TaskId) :
    (after.task? id).map Task.bare = (ctx.task? id).map Task.bare := by
  cases hconsults with
  | silent hoffers => rw [Context.releaseFinished_task?]
  | full hasked hfull => rw [Context.sampled_task?]
  | crowded hasked hnames hbusy hnone => rw [Context.sampled_task?]
  | rejected hasked hnames hbusy hidle => rw [Context.sampled_task?]
  | @dropped answer _ _ _ _ _ _ hasked hnames hidle hmissed hfeedback =>
      rw [← ctx.sampled_task? now answer]
      rfl
  | @assigned answer _ _ _ _ task _ hasked hnames hidle hmeets hfeedback =>
      rw [← ctx.sampled_task? now answer]
      exact Context.bare_modifyTask _ task.id id fun _ => rfl

/-- Only a choice that moves its task is rewarded. -/
theorem Consults.rewarded
    (hconsults : strategy.Consults policy pending ctx now before decision next
      after left) :
    ((decision.map Decision.outcome).filter Outcome.moves = none ∧
        after.rewards = ctx.rewards) ∨
      ∃ answer middle id place task node,
        strategy.Asked policy pending ctx now before answer middle ∧
        strategy.Names pending ctx now answer id place task node ∧
        decision = some (weigh ctx task node now answer.cost) ∧
        after.rewards =
          ctx.rewards ++ [ctx.score task node now answer.cost] := by
  cases hconsults with
  | silent hoffers => exact .inl ⟨rfl, ctx.releaseFinished_rewards now⟩
  | @full answer _ hasked hfull =>
      exact .inl ⟨rfl, ctx.sampled_rewards now answer⟩
  | @crowded answer _ _ _ _ _ hasked hnames hbusy hnone =>
      exact .inl ⟨rfl, ctx.sampled_rewards now answer⟩
  | @rejected answer _ _ _ _ _ hasked hnames hbusy hidle =>
      exact .inl ⟨rfl, ctx.sampled_rewards now answer⟩
  | @dropped answer _ _ id place task node hasked hnames hidle hmissed
      hfeedback =>
      refine .inr ⟨answer, _, id, place, task, node, hasked, hnames, ?_, ?_⟩
      · rw [← weigh_of_network (ctx.sampled_network now answer), weigh,
          if_pos hmissed]
      · rw [← ctx.score_sampled, ← ctx.sampled_rewards now answer]
        rfl
  | @assigned answer _ _ id place task node hasked hnames hidle hmeets
      hfeedback =>
      refine .inr ⟨answer, _, id, place, task, node, hasked, hnames, ?_, ?_⟩
      · rw [← weigh_of_network (ctx.sampled_network now answer), weigh,
          if_neg (Bool.eq_false_iff.mp hmeets)]
      · rw [← ctx.score_sampled, ← ctx.sampled_rewards now answer]
        rfl

/-- A consultation that breaks off rewards the choice that is not acknowledged,
and no other one. -/
theorem Fails.rewarded
    (hfails : strategy.Fails policy pending ctx now before after left) :
    (ctx.samples <+: after.samples ∧ after.rewards = ctx.rewards) ∨
      ∃ answer middle id place task node,
        strategy.Asked policy pending ctx now before answer middle ∧
        strategy.Names pending ctx now answer id place task node ∧
        node.isIdle = true ∧
        after.samples =
          ctx.samples ++ [⟨now, answer.cost, answer.cpuPercent⟩] ∧
        after.rewards =
          ctx.rewards ++ [ctx.score task node now answer.cost] := by
  cases hfails with
  | unanswered hask hunread =>
      refine .inl ⟨?_, ctx.releaseFinished_rewards now⟩
      rw [ctx.releaseFinished_samples now]
  | @unresolved answer _ hasked =>
      refine .inl ⟨?_, ctx.sampled_rewards now answer⟩
      rw [ctx.sampled_samples now answer]
      exact List.prefix_append ..
  | @unheard answer _ _ id place task node _ _ hasked hnames hidle hfeedback =>
      refine .inr ⟨answer, _, id, place, task, node, hasked, hnames, hidle, ?_,
        ?_⟩
      · rw [place_eq, ← ctx.sampled_samples now answer]
        dsimp only
        split <;> rfl
      · rw [place_eq, ← ctx.score_sampled, ← ctx.sampled_rewards now answer]
        dsimp only
        split <;> rfl

end Strategy

/-- The tasks are those of a list, up to their marks. -/
def Simulation.Marks (tasks : List (Task α)) (sim : Simulation α) : Prop :=
  ∀ id, (sim.context.task? id).map Task.bare =
    (tasks[id.index]?).map Task.bare

theorem Simulation.Marks.hear {sim popped : Simulation α}
    {ending : EndCondition α} {event : Event α} {tasks : List (Task α)}
    (hmarks : sim.Marks tasks)
    (hnext : sim.next? ending = some (event, popped)) :
    (popped.heard event.target event.message).Marks tasks := by
  intro id
  rw [← hmarks id]
  rcases heard_context hnext with hsame | ⟨other, _, _, hfinished⟩
  · rw [hsame]
  · rw [hfinished]
    exact Context.bare_modifyTask _ other id fun _ => rfl

theorem Moment.Step.marks {policy : Policy (StateM σ) α}
    {ending : EndCondition α} {before after : Moment σ α} {turn : Turn α}
    {tasks : List (Task α)} (hstep : before.Step policy ending turn after)
    (hmarks : before.sim.Marks tasks) : after.sim.Marks tasks := by
  apply hstep.preserves (Simulation.Marks tasks)
  · intro event popped hnext
    exact hmarks.hear hnext
  · intro sim decision strategy ctx service hmarked _ hconsults id
    rw [Simulation.settled_context, hconsults.bare, hmarked id]

theorem Simulation.closeClock_context (sim : Simulation α)
    (ending : EndCondition α) :
    (sim.closeClock ending).context = sim.context := by
  cases ending <;> rfl

theorem Simulation.heard_rewards (sim : Simulation α) (target : Target)
    (message : Message) :
    (sim.heard target message).context.rewards = sim.context.rewards :=
  congrArg (·.current.rewards) (sim.heard_metrics target message)

theorem Strategy.moves_weigh (ctx : Context α) (task : Task α)
    (node : Node α) (now : Time α) (cost : Span α) :
    (weigh ctx task node now cost).outcome.moves = true := by
  unfold weigh
  split <;> rfl

end

/-! ## Exact runs -/

namespace Simulation

variable {σ : Type} {policy : Policy (StateM σ) ℚ} {sim : Simulation ℚ}
  {tasks : List (Task ℚ)} {before middle : σ} {answer : Answer ℚ}
  {id : TaskId} {place : NodeId} {task : Task ℚ} {node : Node ℚ}

/-- A choice among tasks that have arrived is scored by its outcome. -/
theorem Timetable.signed (htable : sim.Timetable) (hbooks : sim.Books)
    (hmarks : sim.Marks tasks)
    (hnames : sim.gateway.strategy.Names sim.gateway.pending sim.context
      sim.queue.now answer id place task node)
    (hcost : 0 ≤ answer.cost.value) :
    Outcome.Signed tasks (Strategy.weigh sim.context task node sim.queue.now
      answer.cost).outcome (sim.context.score task node sim.queue.now
        answer.cost) := by
  have htask : sim.context.task? id = some task := by
    simpa using hnames.task_eq
  have hnode : sim.context.topology.node? place = some node := by
    simpa using hnames.node_eq
  obtain rfl := hbooks.ledger.numbered id task htask
  have hrunning : 0 ≤ (node.runningTime task.length).value :=
    htable.forward.running task.id task place node htask hnode
  have htransfer : 0 ≤ (sim.context.network.transferDelay node.datacenter
      task.storage).value :=
    htable.forward.transfer task.id task node.datacenter htask
  have harrived : task.arrival.value ≤ sim.queue.now.value :=
    htable.arrived task.id hnames.mem_pending task htask
  have hlisted := hmarks task.id
  rw [htask, Option.map_some] at hlisted
  obtain ⟨first, hfirst, hbare⟩ := Option.map_eq_some_iff.mp hlisted.symm
  have hpriority : (task.priority.weight : ℚ) = first.priority.level / 5 := by
    have hsame : first.bare.priority = task.bare.priority :=
      congrArg Task.priority hbare
    change first.priority = task.priority at hsame
    rw [hsame, Priority.weight_eq]
  cases hmissed : sim.context.misses task node sim.queue.now answer.cost with
  | true =>
      rw [Strategy.weigh, if_pos hmissed, Context.score, hmissed]
      refine ⟨first, hfirst, ?_⟩
      rw [← hpriority]
      exact reward_of_missed hrunning
  | false =>
      have hmet := Context.misses_eq_false_iff.mp hmissed
      rw [Context.startOn, Time.value_add, Time.value_add, Time.value_add]
        at hmet
      have hfits : (node.runningTime task.length).value ≤
          task.window.value := by
        change _ ≤ task.deadline.value - task.arrival.value
        linarith
      rw [Strategy.weigh, if_neg (Bool.eq_false_iff.mp hmissed), Context.score,
        hmissed]
      refine ⟨first, hfirst, ?_⟩
      rw [← hpriority]
      exact reward_of_met hrunning hfits

end Simulation

namespace Moment

variable {σ : Type} {policy : Policy (StateM σ) ℚ} {ending : EndCondition ℚ}
  {before after first last : Moment σ ℚ} {turn : Turn ℚ}
  {turns : List (Turn ℚ)} {tasks : List (Task ℚ)}

/-- A turn is rewarded for the task that it decides on, by the outcome. -/
theorem Step.signed (hstep : before.Step policy ending turn after)
    (hbooks : before.sim.Books) (hordered : before.sim.queue.Ordered)
    (htable : before.sim.Timetable) (hmarks : before.sim.Marks tasks)
    (hphysical : turn.Physical) :
    ∃ scores, after.sim.context.rewards =
        before.sim.context.rewards ++ scores ∧
      List.Forall₂ (Outcome.Signed tasks) turn.moved?.toList scores := by
  cases hstep with
  | @quiet event popped hnext hquiet =>
      refine ⟨[], ?_, .nil⟩
      rw [popped.heard_rewards, (Simulation.next?_eq_some hnext).2.1,
        List.append_nil]
  | @consulted event popped sim decision strategy ctx service hnext hprompts
      hsim hdecide =>
      subst hsim
      have hheard : (popped.heard event.target event.message).context.rewards =
          before.sim.context.rewards := by
        rw [popped.heard_rewards, (Simulation.next?_eq_some hnext).2.1]
      rw [Simulation.settled_context, ← hheard]
      obtain ⟨hkept, hrewards⟩ | ⟨answer, _, id, place, task, node, hasked,
        hnames, rfl, hrewards⟩ := (Strategy.decide_ok hdecide).rewarded
      · have hmoved : (⟨event, some decision⟩ : Turn ℚ).moved? = none := hkept
        rw [hmoved, hrewards]
        exact ⟨[], (List.append_nil _).symm, .nil⟩
      · have hcost : 0 ≤ answer.cost.value := hphysical _ rfl
        have hmoved := Option.filter_some_pos (Strategy.moves_weigh
          (popped.heard event.target event.message).context task node
          (popped.heard event.target event.message).queue.now answer.cost)
        refine ⟨_, hrewards, ?_⟩
        rw [Turn.moved?, Turn.decision?, Option.join_some, Option.map_some,
          hmoved]
        exact .cons ((htable.hear hordered hnext).signed (hbooks.hear hnext)
          (hmarks.hear hnext) hnames hcost) .nil

theorem Run.signed (hrun : Run policy ending first turns last)
    (hbooks : first.sim.Books) (hpunctual : first.sim.Punctual)
    (hphysical : ∀ turn ∈ turns, turn.Physical)
    (htable : first.sim.Timetable) (hmarks : first.sim.Marks tasks) :
    ∃ scores, last.sim.context.rewards =
        first.sim.context.rewards ++ scores ∧
      List.Forall₂ (Outcome.Signed tasks) (turns.filterMap Turn.moved?)
        scores := by
  induction hrun with
  | done now => exact ⟨[], (List.append_nil _).symm, .nil⟩
  | @turn _ _ _ turn turns hstep _ ih =>
      obtain ⟨hturn, hlater⟩ := List.forall_mem_cons.mp hphysical
      obtain ⟨score, hscore, hsigned⟩ :=
        hstep.signed hbooks hpunctual.ordered htable hmarks hturn
      obtain ⟨scores, hscores, hrest⟩ :=
        ih (hstep.books hbooks) (hstep.punctual hpunctual) hlater
          (hstep.timetable hbooks hpunctual.ordered hturn htable)
          (hstep.marks hmarks)
      refine ⟨score ++ scores, ?_, ?_⟩
      · rw [hscores, hscore, List.append_assoc]
      · have hmoved : (turn :: turns).filterMap Turn.moved? =
            turn.moved?.toList ++ turns.filterMap Turn.moved? := by
          rw [List.filterMap_cons]
          cases turn.moved? <;> rfl
        rw [hmoved]
        exact List.rel_append hsigned hrest

/-- The service names a task and an idle node at the next event.  What comes of
it is the last thing that happens when the service does not acknowledge it. -/
def CutShort (policy : Policy (StateM σ) ℚ) (ending : EndCondition ℚ)
    (now : Moment σ ℚ) (outcome : Outcome ℚ) : Prop :=
  ∃ task node cost event popped, now.Proposes policy ending task node cost ∧
    now.sim.next? ending = some (event, popped) ∧
    outcome =
      (Strategy.weigh now.sim.context task node event.time cost).outcome

theorem Ends.signed_of_fault {fault : Fault} {final : Simulation ℚ} {left : σ}
    (hends : last.Ends policy ending (.error fault, final) left)
    (hbooks : last.sim.Books) (hordered : last.sim.queue.Ordered)
    (htable : last.sim.Timetable) (hmarks : last.sim.Marks tasks)
    (hcosts : ∀ sample ∈ final.context.samples, 0 ≤ sample.time.value) :
    ∃ (cut : Option (Outcome ℚ)) (scores : List ℚ),
      (∀ outcome, cut = some outcome →
        last.CutShort policy ending outcome) ∧
      final.context.rewards = last.sim.context.rewards ++ scores ∧
      List.Forall₂ (Outcome.Signed tasks) cut.toList scores := by
  obtain ⟨event, popped, hnext, hprompts, hfails⟩ := hends.fails
  have hheard : (popped.heard event.target event.message).context.rewards =
      last.sim.context.rewards := by
    rw [popped.heard_rewards, (Simulation.next?_eq_some hnext).2.1]
  rw [← hheard]
  obtain ⟨_, hrewards⟩ | ⟨answer, _, id, place, task, node, hasked, hnames,
    hidle, hsamples, hrewards⟩ := hfails.rewarded
  · refine ⟨none, [], by simp, ?_, .nil⟩
    rw [hrewards, List.append_nil]
  · have hcost : 0 ≤ answer.cost.value := by
      rw [hsamples] at hcosts
      exact hcosts _ (List.mem_append_right _ List.mem_cons_self)
    refine ⟨some _, _, ?_, hrewards,
      .cons ((htable.hear hordered hnext).signed (hbooks.hear hnext)
        (hmarks.hear hnext) hnames hcost) .nil⟩
    rintro outcome ⟨⟩
    refine ⟨task, node, answer.cost, event, popped,
      ⟨event, popped, answer, _, id, place, hnext, hprompts, hasked, hnames,
        hidle, rfl⟩, hnext, ?_⟩
    rw [Strategy.weigh_of_network (Simulation.heard_extends hnext).network,
      Simulation.heard_now, Simulation.now_next hnext]

/-- Only a fault may come after a decision that is rewarded and not counted. -/
theorem Ends.signed {reached : Except Fault Unit} {final : Simulation ℚ}
    {left : σ} (hends : last.Ends policy ending (reached, final) left)
    (hbooks : last.sim.Books) (hordered : last.sim.queue.Ordered)
    (htable : last.sim.Timetable) (hmarks : last.sim.Marks tasks)
    (hcosts : ∀ sample ∈ final.context.samples, 0 ≤ sample.time.value) :
    ∃ (cut : Option (Outcome ℚ)) (scores : List ℚ),
      (reached = .ok () → cut = none ∧ last.sim.next? ending = none) ∧
      (∀ outcome, cut = some outcome →
        last.CutShort policy ending outcome) ∧
      final.context.rewards = last.sim.context.rewards ++ scores ∧
      List.Forall₂ (Outcome.Signed tasks) cut.toList scores := by
  cases reached with
  | ok _ =>
      cases hends with
      | finished hnext =>
          refine ⟨none, [], fun _ => ⟨rfl, hnext⟩, by simp, ?_, .nil⟩
          rw [Simulation.closeClock_context, List.append_nil]
  | error fault =>
      obtain ⟨cut, scores, hcut, hsigned⟩ :=
        hends.signed_of_fault hbooks hordered htable hmarks hcosts
      exact ⟨cut, scores, fun hok => (nomatch hok), hcut, hsigned⟩

theorem Ends.samples {reached : Except Fault Unit} {final : Simulation ℚ}
    {left : σ} (hends : last.Ends policy ending (reached, final) left) :
    last.sim.context.samples <+: final.context.samples := by
  cases reached with
  | ok _ =>
      cases hends with
      | finished hnext =>
          rw [Simulation.closeClock_context]
  | error fault =>
      obtain ⟨event, popped, hnext, hprompts, hfails⟩ := hends.fails
      have hheard :
          (popped.heard event.target event.message).context.samples =
            last.sim.context.samples := by
        rw [popped.heard_samples, (Simulation.next?_eq_some hnext).2.1]
      rw [← hheard]
      obtain ⟨hsamples, _⟩ | ⟨_, _, _, _, _, _, _, _, _, hsamples, _⟩ :=
        hfails.rewarded
      · exact hsamples
      · rw [hsamples]
        exact List.prefix_append ..

/-- However an episode with exact clocks and no negative delays ends, its
rewards are those of its decisions, one for each task that was placed or given
up and in this order: none is negative for a placed task or positive for one
that was given up, and none is beyond the weight of its task.  Only when a fault
ends the episode there may be one more, for a choice that was not
acknowledged. -/
theorem rewards_signed {gateway : Gateway ℚ} {ctx : Context ℚ}
    {allotted episode : Nat} {dataset : Dataset ℚ} {service left : σ}
    {result : Except Fault (Time ℚ)} {final : Simulation ℚ}
    (hdataset : dataset.Fresh) (htopology : ctx.topology.Built)
    (hdemands : dataset.Physical) (hnetwork : ctx.network.Physical)
    (hepisode : (Episode.run allotted policy ending gateway.reset
      (ctx.startEpisode episode dataset.jobs dataset.tasks)).run service =
        ((result, final), left))
    (hcosts : ∀ sample ∈ final.context.samples, 0 ≤ sample.time.value) :
    ∃ turns last cut,
      Run policy ending (start gateway ctx episode dataset service) turns
        last ∧
      (result.isOk = true → cut = none ∧ last.sim.next? ending = none) ∧
      (∀ outcome, cut = some outcome →
        last.CutShort policy ending outcome) ∧
      List.Forall₂ (Outcome.Signed dataset.tasks)
        (turns.filterMap Turn.moved? ++ cut.toList)
        final.context.rewards := by
  obtain ⟨turns, last, hreached, hend⟩ := run_of_ended hepisode
  have hrun : Run policy ending (start gateway ctx episode dataset service)
      turns last := hreached
  have hkept : last.sim.context.samples <+: final.context.samples := by
    rcases hend with ⟨_, _, rfl⟩ | ⟨reached, hends, _⟩
    · exact List.prefix_refl _
    · exact hends.samples
  have hphysical : ∀ turn ∈ turns, turn.Physical :=
    hrun.physical_of_samples fun sample hsample =>
      hcosts sample (hkept.subset hsample)
  have hbooks : (start gateway ctx episode dataset service).sim.Books :=
    start_books hdataset htopology
  have hpunctual : (start gateway ctx episode dataset service).sim.Punctual :=
    Simulation.start_punctual hdataset episode
  have hmarks : (start gateway ctx episode dataset service).sim.Marks
      dataset.tasks := fun _ => rfl
  have htable : (start gateway ctx episode dataset service).sim.Timetable :=
    Simulation.start_timetable hdataset htopology hdemands hnetwork episode
  obtain ⟨scores, hscores, hsigned⟩ :=
    hrun.signed hbooks hpunctual hphysical htable hmarks
  have hrewards : last.sim.context.rewards = scores := hscores
  refine ⟨turns, last, ?_⟩
  rcases hend with ⟨rfl, _, rfl⟩ | ⟨reached, hends, rfl⟩
  · refine ⟨none, hrun, fun hok => (nomatch hok), by simp, ?_⟩
    rw [Option.toList_none, List.append_nil]
    rwa [hrewards]
  · obtain ⟨cut, more, hok, hcut, hmore, hlast⟩ := hends.signed
      (hrun.invariant (fun _ _ _ hgood hstep => hstep.books hgood) hbooks)
      (Run.punctual hdataset hrun).ordered
      (hrun.timetable hbooks hpunctual hphysical htable)
      (hrun.invariant (fun _ _ _ hgood hstep => hstep.marks hgood) hmarks)
      hcosts
    refine ⟨cut, hrun, ?_, hcut, ?_⟩
    · cases reached with
      | ok _ => exact fun _ => hok rfl
      | error fault => exact fun hok => nomatch hok
    · rw [hmore, hrewards]
      exact List.rel_append hsigned hlast

end Moment

/-- The first task of the small exact episode is placed and the second one is
given up. -/
theorem Episode.exact_rewards_signed :
    ∃ clock final turns last,
      (Episode.run 20 Exact.service .drained Exact.gateway.reset
        (Exact.context.startEpisode 0 Exact.dataset.jobs
          Exact.dataset.tasks)).run () = ((.ok clock, final), ()) ∧
      (∀ sample ∈ final.context.samples, 0 ≤ sample.time.value) ∧
      final.context.rewards = [197 / 990, -1 / 10] ∧
      Moment.Run Exact.service .drained Exact.first turns last ∧
      List.Forall₂ (Outcome.Signed Exact.dataset.tasks)
        (turns.filterMap Turn.moved?) [197 / 990, -1 / 10] := by
  obtain ⟨clock, final, hepisode, _, hsamples⟩ := Exact.episode_ok
  have hrewards : ((Episode.run 20 Exact.service .drained Exact.gateway.reset
      (Exact.context.startEpisode 0 Exact.dataset.jobs
        Exact.dataset.tasks)).run ()).1.2.context.rewards =
          [197 / 990, -1 / 10] := by
    decide +kernel
  rw [hepisode] at hrewards
  have hcosts := Exact.costs_nonneg hsamples
  obtain ⟨turns, last, cut, hrun, hok, _, hsigned⟩ :=
    Moment.rewards_signed Exact.dataset_fresh Exact.topology_built
      Exact.dataset_physical Exact.network_physical hepisode hcosts
  obtain ⟨rfl, _⟩ := hok rfl
  rw [Option.toList_none, List.append_nil, hrewards] at hsigned
  exact ⟨clock, final, turns, last, hepisode, hcosts, hrewards, hrun, hsigned⟩

end FogDispatch
