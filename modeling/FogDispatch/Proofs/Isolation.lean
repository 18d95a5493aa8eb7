import FogDispatch.Proofs.Conservation
import FogDispatch.Proofs.Replay

/-!
# Episodes are isolated

Nothing that an episode does depends on the episodes before it.  Two contexts
that differ only in the number of their episode and in the metrics of earlier
ones take every step alike, so an episode in the one replays the episode in the
other.  Whatever earlier episodes leave behind, a start and a reset bring it to
where a context and a gateway stand that were never used, up to these two
differences.
-/

namespace FogDispatch

variable {α σ τ : Type}

/-! ## Other earlier episodes -/

def EpisodeMetrics.renumbered (metrics : EpisodeMetrics α) (number : Nat) :
    EpisodeMetrics α :=
  { metrics with episode := number }

/-- The context with another number for its episode and other metrics of earlier
ones. -/
def Context.among (ctx : Context α) (finished : List (EpisodeMetrics α))
    (number : Nat) : Context α :=
  { ctx with metrics := ⟨finished, ctx.metrics.current.renumbered number⟩ }

def Cycle.among (cycle : Cycle α) (finished : List (EpisodeMetrics α))
    (number : Nat) : Cycle α :=
  { cycle with context := cycle.context.among finished number }

def Simulation.among (sim : Simulation α)
    (finished : List (EpisodeMetrics α)) (number : Nat) : Simulation α :=
  { sim with context := sim.context.among finished number }

variable (finished : List (EpisodeMetrics α)) (number : Nat)

namespace Context

@[simp] theorem among_topology (ctx : Context α) :
    (ctx.among finished number).topology = ctx.topology := rfl

@[simp] theorem among_task? (ctx : Context α) (id : TaskId) :
    (ctx.among finished number).task? id = ctx.task? id := rfl

variable [Arith α]

theorem completionOf_renumbered (ctx : Context α)
    (metrics : EpisodeMetrics α) (id : TaskId) :
    ctx.completionOf (metrics.renumbered number) id =
      (ctx.completionOf metrics id).renumbered number := by
  unfold completionOf
  split
  next task _ =>
    unfold EpisodeMetrics.recordCompletion
    split <;> rfl
  next => rfl

theorem foldl_completionOf_renumbered (ctx : Context α) (ids : List TaskId)
    (metrics : EpisodeMetrics α) :
    ids.foldl ctx.completionOf (metrics.renumbered number) =
      (ids.foldl ctx.completionOf metrics).renumbered number := by
  induction ids generalizing metrics with
  | nil => rfl
  | cons id rest ih =>
      rw [List.foldl_cons, completionOf_renumbered, ih, List.foldl_cons]

theorem releaseFinished_among (ctx : Context α) (now : Time α) :
    (ctx.among finished number).releaseFinished now =
      (ctx.releaseFinished now).among finished number := by
  have hmetrics : ((ctx.doneBy now).foldl ctx.completionOf
        (ctx.metrics.current.renumbered number)) =
      ((ctx.doneBy now).foldl ctx.completionOf
        ctx.metrics.current).renumbered number :=
    ctx.foldl_completionOf_renumbered number _ _
  rw [releaseFinished_eq, releaseFinished_eq]
  simp only [among, RunMetrics.modify, ← hmetrics]
  rfl

end Context

theorem Strategy.place_among [Arith α] (ctx : Context α) (task : Task α)
    (node : Node α) (now : Time α) (cost : Span α) :
    Strategy.place (ctx.among finished number) task node now cost =
      ((Strategy.place ctx task node now cost).1,
        (Strategy.place ctx task node now cost).2.1,
        (Strategy.place ctx task node now cost).2.2.among finished
          number) := by
  rw [place_eq, place_eq]
  have hmisses : (ctx.among finished number).misses task node now cost =
      ctx.misses task node now cost := rfl
  rw [hmisses]
  cases ctx.misses task node now cost <;> rfl

/-! ## Steps of both -/

variable {one : Policy (StateM σ) α} {other : Policy (StateM τ) α}

namespace Strategy

theorem feedback_replays (strategy : Strategy α) (score : α)
    (state : List α) :
    Replays one other id (strategy.feedback one.recorded score state)
      (strategy.feedback other.recorded score state) := by
  unfold feedback
  refine (Replays.ask _).bind fun reply => ?_
  cases reply with
  | error fault => exact .pure rfl
  | ok _ =>
      dsimp only [id]
      split
      next => exact .pure rfl
      next =>
        refine (Replays.ask _).bind fun reply => ?_
        cases reply <;> exact .pure rfl

variable [Arith α]

theorem act_replays (strategy : Strategy α) (ctx : Context α) (now : Time α)
    (state : List α) (cost : Span α) (task : Task α) (node : Node α) :
    Replays one other (Cycle.among · finished number)
      (strategy.act ctx one.recorded now state cost task node)
      (strategy.act (ctx.among finished number) other.recorded now state cost
        task node) := by
  unfold act
  split
  next =>
    rw [place_among]
    refine (strategy.feedback_replays _ state).bind fun reply => ?_
    obtain ⟨result, next⟩ := reply
    cases result <;> exact .pure rfl
  next =>
    rw [Context.among_topology]
    split <;> exact .pure rfl

theorem follow_replays (strategy : Strategy α) (ctx : Context α)
    (now : Time α) (offered : List TaskId) (state : List α)
    (answer : Answer α) :
    Replays one other (Cycle.among · finished number)
      (strategy.follow ctx one.recorded now offered state answer)
      (strategy.follow (ctx.among finished number) other.recorded now offered
        state answer) := by
  have hsampled : (ctx.among finished number).measure
      (·.recordSample now answer.cost answer.cpuPercent) =
        (ctx.measure (·.recordSample now answer.cost
          answer.cpuPercent)).among finished number := rfl
  unfold follow
  rw [hsampled]
  generalize ctx.measure _ = sampled
  simp only [Context.among_topology, Context.among_task?]
  split
  next => exact .pure rfl
  next =>
    split
    next => exact .pure rfl
    next id place _ =>
      split
      next task node _ _ =>
        exact strategy.act_replays finished number sampled now state
          answer.cost task node
      next => exact .pure rfl

theorem decide_replays (strategy : Strategy α) (pending : List TaskId)
    (ctx : Context α) (now : Time α) :
    Replays one other (Cycle.among · finished number)
      (strategy.decide pending ctx one.recorded now)
      (strategy.decide pending (ctx.among finished number) other.recorded
        now) := by
  unfold decide
  rw [ctx.releaseFinished_among finished number now]
  generalize ctx.releaseFinished now = swept
  have hadmits : (swept.among finished number).admits = swept.admits := rfl
  have hstate : ∀ tasks, observation (swept.among finished number) tasks now =
      observation swept tasks now := fun _ => rfl
  simp only [hadmits, hstate]
  split
  next => exact .pure rfl
  next =>
    refine (Replays.ask _).bind fun reply => ?_
    cases reply with
    | error fault => exact .pure rfl
    | ok raw =>
        dsimp only [id]
        cases Answer.read strategy.costs raw with
        | error fault => exact .pure rfl
        | ok answer =>
            exact strategy.follow_replays finished number swept now _ _
              answer

end Strategy

namespace Simulation

theorem prompts_among (sim : Simulation α) (target : Target) (message : Message) :
    (sim.among finished number).prompts target message =
      sim.prompts target message := by
  cases target <;> cases message <;> rfl

variable [Arith α] (sim : Simulation α)

theorem heard_among (target : Target) (message : Message) :
    (sim.among finished number).heard target message =
      (sim.heard target message).among finished number := by
  cases target with
  | datacenter id =>
      cases message with
      | taskSubmit task node =>
          simp only [heard, runOnDatacenter, among, Context.among_task?,
            Context.among_topology]
          split <;> rfl
      | taskArrival task => rfl
      | gatewayWake => rfl
      | decisionDue => rfl
      | taskFinished task node => rfl
  | gateway =>
      cases message with
      | taskArrival task => rfl
      | gatewayWake => rfl
      | decisionDue =>
          simp only [heard, among]
          split <;> rfl
      | taskSubmit task node => rfl
      | taskFinished task node =>
          simp only [heard, onFinished, among]
          split <;> rfl

theorem decide_replays :
    Replays one other (Prod.map id (Simulation.among · finished number))
      (sim.decide one.recorded)
      ((sim.among finished number).decide other.recorded) := by
  unfold decide
  refine (sim.gateway.strategy.decide_replays finished number
    sim.gateway.pending sim.context sim.queue.now).bind fun cycle => ?_
  obtain ⟨result, strategy, ctx⟩ := cycle
  rcases result with fault | _ | decision <;> exact .pure rfl

theorem deliver_replays (target : Target) (message : Message) :
    Replays one other (Prod.map id (Simulation.among · finished number))
      (sim.deliver one.recorded target message)
      ((sim.among finished number).deliver other.recorded target message) := by
  rw [deliver_eq, deliver_eq, heard_among, prompts_among]
  split
  next => exact (sim.heard target message).decide_replays finished number
  next => exact .pure rfl

theorem runEvents_replays (ending : EndCondition α) (allotted : Nat) :
    Replays one other (Prod.map id (Simulation.among · finished number))
      (sim.runEvents one.recorded ending allotted)
      ((sim.among finished number).runEvents other.recorded ending
        allotted) := by
  induction allotted generalizing sim with
  | zero => exact .pure rfl
  | succ allotted ih =>
      unfold runEvents
      have hnext : (sim.among finished number).next? ending =
          (sim.next? ending).map
            (Prod.map id (Simulation.among · finished number)) := by
        rw [next?, next?, Option.map_map]
        rfl
      rw [hnext]
      cases sim.next? ending with
      | none => cases ending <;> exact .pure rfl
      | some pair =>
          obtain ⟨event, popped⟩ := pair
          refine (popped.deliver_replays finished number event.target
            event.message).bind fun delivered => ?_
          obtain ⟨result, after⟩ := delivered
          cases result with
          | error fault => exact .pure rfl
          | ok _ => exact ih after

end Simulation

theorem Episode.run_replays [Arith α] (allotted : Nat)
    (ending : EndCondition α) (gateway : Gateway α) (ctx : Context α) :
    Replays one other (Prod.map id (Simulation.among · finished number))
      (Episode.run allotted one.recorded ending gateway ctx)
      (Episode.run allotted other.recorded ending gateway
        (ctx.among finished number)) := by
  unfold Episode.run
  refine ((initial gateway ctx).runEvents_replays finished number ending
    allotted).bind fun ended => ?_
  obtain ⟨result, final⟩ := ended
  cases result <;> exact .pure rfl

/-! ## What earlier episodes leave behind -/

/-- What all episodes of a seed have in common. -/
structure Setting (α : Type) where
  topology : Topology α
  network : Network α
  respectJobs : Bool
  kind : StrategyKind
  costs : CostModel α

/-- The setting of a strategy and a context, up to what nodes run at present. -/
def Setting.of (strategy : Strategy α) (ctx : Context α) : Setting α :=
  ⟨ctx.topology.reset, ctx.network, ctx.respectJobs, strategy.kind,
    strategy.costs⟩

variable [Arith α]

def Setting.context (setting : Setting α) : Context α :=
  Context.fresh setting.topology setting.network setting.respectJobs

def Setting.gateway (setting : Setting α) : Gateway α :=
  Gateway.fresh (Strategy.fresh setting.kind setting.costs)

/-- A gateway and a context that episodes of a seed leave behind, each over any
tasks, with any service and to any end but a fault. -/
inductive Setting.LeavesBehind (setting : Setting α) :
    Gateway α → Context α → Prop
  | unused : LeavesBehind setting setting.gateway setting.context
  | episode {σ : Type} {policy : Policy (StateM σ) α} {allotted number : Nat}
      {ending : EndCondition α} {dataset : Dataset α} {gateway : Gateway α}
      {ctx : Context α} {before after : σ} {clock : Time α}
      {final : Simulation α} (hbefore : LeavesBehind setting gateway ctx)
      (hepisode : (Episode.run allotted policy ending gateway.reset
        (ctx.startEpisode number dataset.jobs dataset.tasks)).run before =
          ((.ok clock, final), after)) :
      LeavesBehind setting final.gateway (final.context.finishEpisode clock)

theorem setting_releaseFinished (strategy : Strategy α) (ctx : Context α)
    (now : Time α) :
    Setting.of strategy (ctx.releaseFinished now) =
      Setting.of strategy ctx := by
  rw [Context.releaseFinished_eq]
  rfl

theorem Strategy.Consults.setting {policy : Policy (StateM σ) α}
    {strategy next : Strategy α} {pending : List TaskId}
    {ctx after : Context α} {now : Time α} {before left : σ}
    {decision : Option (Decision α)}
    (hconsults : strategy.Consults policy pending ctx now before decision next
      after left) : Setting.of next after = Setting.of strategy ctx := by
  have hswept := setting_releaseFinished strategy ctx now
  cases hconsults with
  | silent hoffers => exact hswept
  | full hasked hfull => exact hswept
  | crowded hasked hnames hbusy hnone => exact hswept
  | rejected hasked hnames hbusy hidle => exact hswept
  | dropped hasked hnames hidle hmissed hfeedback => exact hswept
  | @assigned answer _ _ _ _ task node hasked hnames hidle hmeets hfeedback =>
      refine Eq.trans ?_ hswept
      rw [Setting.of, Setting.of, Setting.mk.injEq]
      exact ⟨Topology.reset_markBusy _ node.id, rfl, rfl, rfl, rfl⟩

theorem Simulation.setting_heard {sim popped : Simulation α}
    {ending : EndCondition α} {event : Event α}
    (hnext : sim.next? ending = some (event, popped)) :
    Setting.of (popped.heard event.target event.message).gateway.strategy
        (popped.heard event.target event.message).context =
      Setting.of sim.gateway.strategy sim.context := by
  obtain ⟨hgateway, _, _⟩ := next?_eq_some hnext
  rw [heard_strategy, hgateway]
  rcases heard_context hnext with hsame | ⟨id, node, _, hfinished⟩
  · rw [hsame]
  · rw [hfinished, Setting.of, Setting.of, Setting.mk.injEq]
    exact ⟨Topology.reset_markIdle _ node, rfl, rfl, rfl, rfl⟩

theorem Moment.Step.setting {policy : Policy (StateM σ) α}
    {ending : EndCondition α} {before after : Moment σ α} {turn : Turn α}
    (hstep : before.Step policy ending turn after) :
    Setting.of after.sim.gateway.strategy after.sim.context =
      Setting.of before.sim.gateway.strategy before.sim.context := by
  apply hstep.preserves fun sim =>
    Setting.of sim.gateway.strategy sim.context =
      Setting.of before.sim.gateway.strategy before.sim.context
  · intro event popped hnext
    exact Simulation.setting_heard hnext
  · intro sim decision strategy ctx service hheard _ hconsults
    rw [Simulation.settled_strategy, Simulation.settled_context]
    exact hconsults.setting.trans hheard

theorem Moment.Run.setting {policy : Policy (StateM σ) α}
    {ending : EndCondition α} {first last : Moment σ α}
    {turns : List (Turn α)} (hrun : Run policy ending first turns last) :
    Setting.of last.sim.gateway.strategy last.sim.context =
      Setting.of first.sim.gateway.strategy first.sim.context := by
  induction hrun with
  | done now => rfl
  | turn hstep _ ih => exact ih.trans hstep.setting

theorem setting_startEpisode (strategy : Strategy α) (ctx : Context α)
    (number : Nat) (dataset : Dataset α) :
    Setting.of strategy.reset
        (ctx.startEpisode number dataset.jobs dataset.tasks) =
      Setting.of strategy ctx := by
  rw [Setting.of, Setting.of, Setting.mk.injEq]
  refine ⟨?_, rfl, rfl, rfl, rfl⟩
  change ctx.topology.reset.reset = ctx.topology.reset
  rw [Topology.reset, Topology.reset, List.map_map]
  rfl

/-- No episode changes the setting. -/
theorem Setting.LeavesBehind.setting_eq {setting : Setting α}
    {gateway : Gateway α} {ctx : Context α}
    (hleft : setting.LeavesBehind gateway ctx) :
    Setting.of gateway.strategy ctx =
      Setting.of setting.gateway.strategy setting.context := by
  induction hleft with
  | unused => rfl
  | @episode _ _ _ number ending dataset gateway ctx _ _ clock final _
      hepisode ih =>
      obtain ⟨turns, last, hrun, _, rfl, _, _⟩ :=
        Moment.run_of_episode hepisode
      have hclosed : Setting.of last.sim.gateway.strategy last.sim.context =
          Setting.of gateway.strategy ctx :=
        hrun.setting.trans (setting_startEpisode gateway.strategy ctx _ _)
      have hswept := setting_releaseFinished last.sim.gateway.strategy
        last.sim.context clock
      refine Eq.trans ?_ (hswept.trans (hclosed.trans ih))
      cases ending <;> rfl

/-! ## Starting again -/

omit [Arith α] in
theorem Gateway.reset_eq_of_setting {gateway gateway' : Gateway α}
    {ctx ctx' : Context α}
    (hsetting : Setting.of gateway.strategy ctx =
      Setting.of gateway'.strategy ctx') : gateway'.reset = gateway.reset := by
  obtain ⟨_, _, _, hkind, hcosts⟩ := Setting.mk.inj hsetting
  simp only [reset, Strategy.reset, hkind, hcosts]

theorem Context.startEpisode_among {strategy strategy' : Strategy α}
    {ctx ctx' : Context α}
    (hsetting : Setting.of strategy ctx = Setting.of strategy' ctx')
    (number number' : Nat) (dataset : Dataset α) :
    ctx'.startEpisode number' dataset.jobs dataset.tasks =
      (ctx.startEpisode number dataset.jobs dataset.tasks).among
        ctx'.metrics.finished number' := by
  obtain ⟨htopology, hnetwork, hrespect, _, _⟩ := Setting.mk.inj hsetting
  simp only [startEpisode, among, htopology, hnetwork, hrespect]
  rfl

/-- A closed episode is entered alike, but for its number. -/
theorem Context.finishEpisode_among (ctx : Context α) (clock : Time α) :
    ∃ metrics, (ctx.finishEpisode clock).metrics.finished =
        ctx.metrics.finished ++ [metrics] ∧
      ((ctx.among finished number).finishEpisode clock).metrics.finished =
        finished ++ [metrics.renumbered number] := by
  refine ⟨_, ctx.finishEpisode_finished clock, ?_⟩
  rw [finishEpisode_finished, releaseFinished_among]
  rfl

/-- An episode adds nothing to the metrics of earlier ones before it is
closed. -/
theorem Episode.finished_eq {allotted : Nat} {policy : Policy (StateM σ) α}
    {ending : EndCondition α} {gateway : Gateway α} {ctx : Context α}
    {memory : σ} :
    ((Episode.run allotted policy.recorded ending gateway ctx).run
      ([], memory)).1.2.context.metrics.finished = ctx.metrics.finished := by
  -- the episode replays itself among its own earlier ones
  have hreplays : Replays policy policy
      (Prod.map id (Simulation.among · ctx.metrics.finished
        ctx.metrics.current.episode))
      (Episode.run allotted policy.recorded ending gateway ctx)
      (Episode.run allotted policy.recorded ending gateway ctx) :=
    Episode.run_replays ctx.metrics.finished ctx.metrics.current.episode
      allotted ending gateway ctx
  have hanswers : ∀ requests, policy.answers memory requests =
      policy.answers memory requests := fun _ => rfl
  obtain ⟨_, hvalue⟩ := hreplays.sent_eq (hanswers _)
  exact congrArg (fun ended => ended.2.context.metrics.finished) hvalue

/-- How two episodes end alike, the second one after earlier ones. -/
structure Episode.EndsAlike (number : Nat)
    (earlier : List (EpisodeMetrics α))
    (unused later : Except Fault (Time α) × Simulation α) : Prop where
  result : later.1 = unused.1
  clock : later.2.queue.now = unused.2.queue.now
  unplaced : later.2.gateway.unplaced = unused.2.gateway.unplaced
  untouched : later.2.context.metrics.finished = earlier
  entered : ∀ clock, later.1 = .ok clock → ∃ metrics,
    (later.2.context.finishEpisode clock).metrics.finished =
        earlier ++ [metrics] ∧
      (unused.2.context.finishEpisode clock).metrics.finished =
        [metrics.renumbered number]

/-- Whatever earlier episodes leave behind, the next one sends the same requests
and ends alike as on a context and a gateway that were never used, as long as
its requests are answered alike. -/
theorem Setting.LeavesBehind.isolated {setting : Setting α}
    {gateway : Gateway α} {ctx : Context α}
    (hleft : setting.LeavesBehind gateway ctx) (dataset : Dataset α)
    (ending : EndCondition α) (allotted number number' : Nat)
    (policy : Policy (StateM σ) α) (memory : σ)
    (policy' : Policy (StateM τ) α) (memory' : τ) :
    let later := Episode.run allotted policy.recorded ending gateway.reset
      (ctx.startEpisode number dataset.jobs dataset.tasks)
    let unused := Episode.run allotted policy'.recorded ending
      setting.gateway.reset
      (setting.context.startEpisode number' dataset.jobs dataset.tasks)
    policy.answers memory (sentBy later memory) =
        policy'.answers memory' (sentBy later memory) →
      sentBy unused memory' = sentBy later memory ∧
        Episode.EndsAlike number' ctx.metrics.finished
          (unused.run ([], memory')).1 (later.run ([], memory)).1 := by
  intro later unused hanswers
  have hsetting := hleft.setting_eq
  have hreplays : Replays policy policy'
      (Prod.map id (Simulation.among · [] number')) later unused := by
    have hgateway := Gateway.reset_eq_of_setting hsetting
    have hctx := Context.startEpisode_among hsetting number number' dataset
    simp only [later, unused, hgateway, hctx]
    exact Episode.run_replays [] number' allotted ending gateway.reset _
  obtain ⟨hsent, hvalue⟩ := hreplays.sent_eq hanswers
  refine ⟨hsent, ?_⟩
  have huntouched : (later.run ([], memory)).1.2.context.metrics.finished =
      ctx.metrics.finished := Episode.finished_eq
  rw [hvalue]
  refine ⟨rfl, rfl, rfl, huntouched, ?_⟩
  intro clock _
  have hentered := (later.run ([], memory)).1.2.context.finishEpisode_among []
    number' clock
  rw [huntouched] at hentered
  exact hentered

namespace Sample

def setting : Setting Binary64 :=
  ⟨topology, context.network, true, .placement, gateway.strategy.costs⟩

/-- The service of the small episode, with a count of its answers. -/
def counting : Policy (StateM Nat) Binary64 :=
  ⟨fun _ => do
    modify (· + 1)
    return .ok "1,0d0"⟩

theorem answers_counting (requests : List (Request Binary64)) (count : Nat) :
    service.answers () requests = counting.answers count requests := by
  induction requests generalizing count with
  | nil => rfl
  | cons request rest ih => exact congrArg _ (ih (count + 1))

/-- The end of the small episode if it is cut after two seconds. -/
def cut : Except Fault (Time Binary64) × Simulation Binary64 :=
  ((Episode.run 20 service (.limit ⟨whole 2⟩) setting.gateway.reset
    (setting.context.startEpisode 0 dataset.jobs dataset.tasks)).run ()).1

/-- An episode is cut while a task is pending, another one is on its way to a
busy node and the gateway decides. -/
theorem cut_midway : ∃ gateway ctx, setting.LeavesBehind gateway ctx ∧
    gateway.state = .deciding ∧ gateway.pending = [⟨1⟩] ∧
      ctx.running = [⟨0⟩] := by
  have hcut : cut.1 = .ok ⟨whole 2⟩ ∧ cut.2.gateway.state = .deciding ∧
      cut.2.gateway.pending = [⟨1⟩] ∧
      (cut.2.context.finishEpisode ⟨whole 2⟩).running = [⟨0⟩] := by
    decide +kernel
  obtain ⟨hclock, hstate, hpending, hrunning⟩ := hcut
  cases hepisode : (Episode.run 20 service (.limit ⟨whole 2⟩)
      setting.gateway.reset (setting.context.startEpisode 0 dataset.jobs
        dataset.tasks)).run () with
  | mk ended left =>
      obtain ⟨result, final⟩ := ended
      have hended : cut = (result, final) := by rw [cut, hepisode]
      simp only [hended] at hclock hstate hpending hrunning
      subst hclock
      exact ⟨_, _, .episode .unused hepisode, hstate, hpending, hrunning⟩

end Sample

/-- After an episode that was cut midway the small episode goes as on a gateway
that was never used. -/
theorem Setting.LeavesBehind.sample_isolated :
    ∃ gateway ctx, Sample.setting.LeavesBehind gateway ctx ∧
      gateway.state = .deciding ∧ ctx.running = [⟨0⟩] ∧
      let later := Episode.run 20 Sample.service.recorded .drained
        gateway.reset
        (ctx.startEpisode 1 Sample.dataset.jobs Sample.dataset.tasks)
      let unused := Episode.run 20 Sample.counting.recorded .drained
        Sample.setting.gateway.reset (Sample.setting.context.startEpisode 0
          Sample.dataset.jobs Sample.dataset.tasks)
      sentBy unused 0 = sentBy later () ∧
        Episode.EndsAlike 0 ctx.metrics.finished (unused.run ([], 0)).1
          (later.run ([], ())).1 := by
  obtain ⟨gateway, ctx, hleft, hstate, _, hrunning⟩ := Sample.cut_midway
  exact ⟨gateway, ctx, hleft, hstate, hrunning,
    hleft.isolated Sample.dataset .drained 20 1 0 Sample.service ()
      Sample.counting 0 (Sample.answers_counting _ 0)⟩

end FogDispatch
