import FogDispatch.Proofs.Coupling
import FogDispatch.Proofs.Horizon
import FogDispatch.Proofs.Punctuality
import FogDispatch.Proofs.Requests

/-!
# No look-ahead

All arrivals are queued before an episode starts, and its tasks stand in one
list that everyone reads.  Nevertheless an episode with a time limit can not
tell apart two lists of tasks that differ only in tasks arriving after the
limit.  Two such episodes go in lock-step: their queues agree on what is due by
the limit, and whatever they hold or deliver concerns tasks that both know.
-/

namespace FogDispatch

variable {α σ : Type} {known : TaskId → Prop}

/-! ## Contexts -/

namespace Context

/-- The context with another list of tasks. -/
def withTasks (ctx : Context α) (tasks : List (Task α)) : Context α :=
  { ctx with tasks := tasks }

/-- Another list shows the known tasks as the context does, and only known tasks
are placed. -/
structure Shows (known : TaskId → Prop) (ctx : Context α)
    (tasks : List (Task α)) : Prop where
  looked : ∀ id, known id → (ctx.withTasks tasks).task? id = ctx.task? id
  numbered : ∀ id task, known id → ctx.task? id = some task → task.id = id
  running : ∀ id ∈ ctx.running, known id

variable {ctx after : Context α} {tasks : List (Task α)}

theorem Shows.of_same (hshows : ctx.Shows known tasks)
    (htasks : after.tasks = ctx.tasks)
    (hrunning : ∀ id ∈ after.running, known id) : after.Shows known tasks := by
  have htask : ∀ id, after.task? id = ctx.task? id := by
    intro id
    rw [task?, htasks]
    rfl
  constructor
  case looked =>
    intro id hid
    rw [htask]
    exact hshows.looked id hid
  case numbered =>
    intro id task hid
    rw [htask]
    exact hshows.numbered id task hid
  case running => exact hrunning

theorem Shows.modifyTask (hshows : ctx.Shows known tasks) (id : TaskId)
    {change : Task α → Task α}
    (hchange : ∀ task, (change task).id = task.id) :
    (ctx.modifyTask id change).Shows known (tasks.modify id.index change) := by
  have hover : (ctx.modifyTask id change).withTasks (tasks.modify id.index change) =
      (ctx.withTasks tasks).modifyTask id change := rfl
  constructor
  case looked =>
    intro other hother
    rw [hover, task?_modifyTask, task?_modifyTask, hshows.looked other hother]
  case numbered =>
    intro other task hother htask
    rw [task?_modifyTask] at htask
    split at htask
    next =>
      obtain ⟨before, hbefore, rfl⟩ := Option.map_eq_some_iff.mp htask
      rw [hchange]
      exact hshows.numbered other before hother hbefore
    next => exact hshows.numbered other task hother htask
  case running => exact hshows.running

theorem Shows.admits_eq (hshows : ctx.Shows known tasks) {id : TaskId}
    (hid : known id) : (ctx.withTasks tasks).admits id = ctx.admits id := by
  unfold admits
  rw [hshows.looked id hid]
  rfl

theorem Shows.finished (hshows : ctx.Shows known tasks) (id : TaskId)
    (node : NodeId) (now : Time α) :
    ∃ left, (ctx.finished id node now).Shows known left ∧
      (ctx.withTasks tasks).finished id node now =
        (ctx.finished id node now).withTasks left := by
  have hmarked : (ctx.modifyTask id fun t =>
      { t with finish := some now }).Shows known _ :=
    hshows.modifyTask id fun _ => rfl
  exact ⟨_, hmarked.of_same rfl hmarked.running, rfl⟩

variable [Arith α]

theorem Shows.isFinishedBy_eq (hshows : ctx.Shows known tasks) (now : Time α)
    {id : TaskId} (hid : known id) :
    (ctx.withTasks tasks).isFinishedBy now id = ctx.isFinishedBy now id := by
  unfold isFinishedBy
  rw [hshows.looked id hid]

theorem Shows.releaseFinished_withTasks (hshows : ctx.Shows known tasks)
    (now : Time α) :
    (ctx.withTasks tasks).releaseFinished now =
      (ctx.releaseFinished now).withTasks tasks := by
  have hfinished : ∀ id ∈ ctx.running,
      (ctx.withTasks tasks).isFinishedBy now id = ctx.isFinishedBy now id :=
    fun id hid => hshows.isFinishedBy_eq now (hshows.running id hid)
  have hdone : (ctx.withTasks tasks).doneBy now = ctx.doneBy now :=
    List.filter_congr hfinished
  have hleft : (ctx.withTasks tasks).running.filter (fun id =>
        !(ctx.withTasks tasks).isFinishedBy now id) =
      ctx.running.filter fun id => !ctx.isFinishedBy now id :=
    List.filter_congr fun id hid => congrArg _ (hfinished id hid)
  have hlooked : ∀ id ∈ ctx.doneBy now,
      (ctx.withTasks tasks).task? id = ctx.task? id :=
    fun id hid =>
      hshows.looked id (hshows.running id (List.mem_of_mem_filter hid))
  have hjobs : (ctx.doneBy now).foldl (ctx.withTasks tasks).departureOf
        (ctx.withTasks tasks).jobs =
      (ctx.doneBy now).foldl ctx.departureOf ctx.jobs := by
    apply List.foldl_ext
    intro jobs id hid
    rw [departureOf, departureOf, hlooked id hid]
  have hmetrics : ∀ metrics,
      (ctx.doneBy now).foldl (ctx.withTasks tasks).completionOf metrics =
        (ctx.doneBy now).foldl ctx.completionOf metrics := by
    intro metrics
    apply List.foldl_ext
    intro metrics id hid
    rw [completionOf, completionOf, hlooked id hid]
  rw [releaseFinished_eq, releaseFinished_eq, hdone, hjobs, hleft]
  simp only [hmetrics]
  rfl

theorem Shows.releaseFinished (hshows : ctx.Shows known tasks) (now : Time α) :
    (ctx.releaseFinished now).Shows known tasks := by
  apply hshows.of_same
  · simp
  · intro id hid
    rw [releaseFinished_running] at hid
    exact hshows.running id (List.mem_of_mem_filter hid)

theorem Shows.bound (hshows : ctx.Shows known tasks) {task : Task α}
    (htask : known task.id) (node : Node α) (now : Time α) (cost : Span α) :
    ∃ left, (ctx.bound task node now cost).Shows known left ∧
      (ctx.withTasks tasks).bound task node now cost =
        (ctx.bound task node now cost).withTasks left := by
  have hrunning : ∀ id ∈ ctx.running ++ [task.id], known id := by
    intro id hid
    rcases List.mem_append.mp hid with hplaced | hnew
    · exact hshows.running id hplaced
    · rw [List.mem_singleton.mp hnew]
      exact htask
  refine ⟨_, Shows.modifyTask ?_ task.id fun _ => rfl, rfl⟩
  exact hshows.of_same rfl hrunning

/-- Two contexts that differ only in tasks that are not known. -/
def Alike (known : TaskId → Prop) (ctx ctx' : Context α) : Prop :=
  ∃ tasks, ctx' = ctx.withTasks tasks ∧ ctx.Shows known tasks

end Context

/-! ## Decisions -/

/-- Two decision cycles with one result, which is about known tasks. -/
structure Cycle.Alike (known : TaskId → Prop) (cycle cycle' : Cycle α) :
    Prop where
  result : cycle'.result = cycle.result
  strategy : cycle'.strategy = cycle.strategy
  context : cycle.context.Alike known cycle'.context
  known : ∀ decision id, cycle.result = .ok (some decision) →
    decision.task? = some id → known id

/-- Without a decision, or with one that takes no task off the queue, only the
contexts can tell two cycles apart. -/
theorem Cycle.alike_of_kept {ctx ctx' : Context α}
    {result : Except Fault (Option (Decision α))} {strategy : Strategy α}
    (hctx : ctx.Alike known ctx')
    (hkept : ∀ decision, result = .ok (some decision) →
      decision.task? = none) :
    Cycle.Alike known ⟨result, strategy, ctx⟩ ⟨result, strategy, ctx'⟩ := by
  refine ⟨rfl, rfl, hctx, ?_⟩
  intro decision id hresult hid
  rw [hkept decision hresult] at hid
  cases hid

variable [Arith α]

namespace Strategy

variable {ctx : Context α} {tasks : List (Task α)}

theorem mem_of_mem_offered {kind : StrategyKind} {admitted : List TaskId}
    {id : TaskId} (hid : id ∈ offered kind admitted) : id ∈ admitted := by
  cases kind with
  | placement => exact List.mem_of_mem_take hid
  | joint => exact hid

theorem observation_withTasks (hshows : ctx.Shows known tasks)
    {ids : List TaskId} (hids : ∀ id ∈ ids, known id) (now : Time α) :
    observation (ctx.withTasks tasks) ids now = observation ctx ids now := by
  have hseen : ids.filterMap (ctx.withTasks tasks).task? =
      ids.filterMap ctx.task? :=
    List.filterMap_congr fun id hid => hshows.looked id (hids id hid)
  rw [observation, hseen]
  rfl

theorem place_withTasks (hshows : ctx.Shows known tasks) {task : Task α}
    (htask : known task.id) (node : Node α) (now : Time α) (cost : Span α) :
    ∃ left, (place ctx task node now cost).2.2.Shows known left ∧
      place (ctx.withTasks tasks) task node now cost =
        ((place ctx task node now cost).1, (place ctx task node now cost).2.1,
          (place ctx task node now cost).2.2.withTasks left) := by
  have hmisses : (ctx.withTasks tasks).misses task node now cost =
      ctx.misses task node now cost := rfl
  rw [place_eq, place_eq, hmisses]
  cases ctx.misses task node now cost with
  | true => exact ⟨tasks, hshows.of_same rfl hshows.running, rfl⟩
  | false =>
      obtain ⟨left, hleft, hbound⟩ := hshows.bound htask node now cost
      refine ⟨left, hleft, ?_⟩
      rw [hbound]
      rfl

theorem place_task? (ctx : Context α) (task : Task α) (node : Node α)
    (now : Time α) (cost : Span α) :
    (Decision.mk (place ctx task node now cost).1 cost).task? =
      some task.id := by
  rw [place_eq]
  cases ctx.misses task node now cost <;> rfl

theorem act_coupled (strategy : Strategy α) (policy : Policy (StateM σ) α)
    (hshows : ctx.Shows known tasks) (now : Time α) (state : List α)
    (cost : Span α) {task : Task α} (htask : known task.id) (node : Node α) :
    Coupled (Cycle.Alike known)
      (strategy.act ctx policy now state cost task node)
      (strategy.act (ctx.withTasks tasks) policy now state cost task node) := by
  have hsame : ctx.Alike known (ctx.withTasks tasks) := ⟨tasks, rfl, hshows⟩
  unfold act
  split
  next =>
    obtain ⟨left, hleft, hplace⟩ :=
      place_withTasks hshows htask node now cost
    have hnamed := place_task? ctx task node now cost
    rw [hplace]
    generalize place ctx task node now cost = placed at hleft hnamed
    obtain ⟨outcome, score, after⟩ := placed
    have hafter : (after.measure (·.recordReward score)).Alike known
        ((after.withTasks left).measure (·.recordReward score)) :=
      ⟨left, rfl, hleft.of_same rfl hleft.running⟩
    refine (Coupled.refl (strategy.feedback policy score state)).bind ?_
    rintro ⟨result, next⟩ _ rfl
    cases result with
    | error fault => exact .pure (Cycle.alike_of_kept hafter (by simp))
    | ok _ =>
        apply Coupled.pure
        refine ⟨rfl, rfl, hafter, ?_⟩
        rintro _ id ⟨⟩ hid
        rw [hnamed] at hid
        obtain rfl := Option.some.inj hid
        exact htask
  next =>
    have hidle : (ctx.withTasks tasks).topology.anyCandidateIdle =
        ctx.topology.anyCandidateIdle := rfl
    rw [hidle]
    split
    next => exact .pure (Cycle.alike_of_kept hsame (by rintro _ ⟨⟩; rfl))
    next => exact .pure (Cycle.alike_of_kept hsame (by rintro _ ⟨⟩; rfl))

theorem follow_coupled (strategy : Strategy α) (policy : Policy (StateM σ) α)
    (hshows : ctx.Shows known tasks) (now : Time α) {offered : List TaskId}
    (hoffered : ∀ id ∈ offered, known id) (state : List α)
    (answer : Answer α) :
    Coupled (Cycle.Alike known)
      (strategy.follow ctx policy now offered state answer)
      (strategy.follow (ctx.withTasks tasks) policy now offered state
        answer) := by
  have hsampled : (ctx.withTasks tasks).measure
      (·.recordSample now answer.cost answer.cpuPercent) =
        (ctx.measure (·.recordSample now answer.cost
          answer.cpuPercent)).withTasks tasks := rfl
  have hshown : (ctx.measure (·.recordSample now answer.cost
      answer.cpuPercent)).Shows known tasks :=
    hshows.of_same rfl hshows.running
  unfold follow
  rw [hsampled]
  generalize ctx.measure _ = sampled at hshown
  have htopology : (sampled.withTasks tasks).topology = sampled.topology := rfl
  have hsame : sampled.Alike known (sampled.withTasks tasks) :=
    ⟨tasks, rfl, hshown⟩
  simp only [htopology]
  split
  next => exact .pure (Cycle.alike_of_kept hsame (by rintro _ ⟨⟩; rfl))
  next =>
    split
    next => exact .pure (Cycle.alike_of_kept hsame (by simp))
    next id place hresolved =>
      have hid : known id := hoffered id (resolve?_mem hresolved).1
      rw [hshown.looked id hid]
      split
      next task node htask _ =>
        have hnumbered := hshown.numbered id task hid htask
        rw [← hnumbered] at hid
        exact strategy.act_coupled policy hshown now state answer.cost hid
          node
      next => exact .pure (Cycle.alike_of_kept hsame (by simp))

theorem decide_coupled (strategy : Strategy α) (policy : Policy (StateM σ) α)
    (hshows : ctx.Shows known tasks) {pending : List TaskId}
    (hpending : ∀ id ∈ pending, known id) (now : Time α) :
    Coupled (Cycle.Alike known) (strategy.decide pending ctx policy now)
      (strategy.decide pending (ctx.withTasks tasks) policy now) := by
  have hswept := hshows.releaseFinished now
  unfold decide
  rw [hshows.releaseFinished_withTasks]
  generalize ctx.releaseFinished now = swept at hswept
  have hsame : swept.Alike known (swept.withTasks tasks) :=
    ⟨tasks, rfl, hswept⟩
  have hadmitted : pending.filter (swept.withTasks tasks).admits =
      pending.filter swept.admits :=
    List.filter_congr fun id hid => hswept.admits_eq (hpending id hid)
  have hoffered : ∀ id ∈ offered strategy.kind (pending.filter swept.admits),
      known id := by
    intro id hid
    exact hpending id (List.mem_of_mem_filter (mem_of_mem_offered hid))
  dsimp only
  rw [hadmitted, observation_withTasks hswept hoffered]
  split
  next => exact .pure (Cycle.alike_of_kept hsame (by simp))
  next =>
    refine (Coupled.refl _).bind ?_
    rintro reply _ rfl
    cases reply with
    | error fault => exact .pure (Cycle.alike_of_kept hsame (by simp))
    | ok raw =>
        dsimp only
        cases Answer.read strategy.costs raw with
        | error fault => exact .pure (Cycle.alike_of_kept hsame (by simp))
        | ok answer =>
            exact strategy.follow_coupled policy hswept now hoffered _ answer

end Strategy

/-! ## Episodes -/

namespace Simulation

variable {limit : Time α} {sim sim' : Simulation α}

/-- Two states of episodes that have gone alike so far. -/
structure Alike (limit : Time α) (known : TaskId → Prop)
    (sim sim' : Simulation α) : Prop where
  gateway : sim'.gateway = sim.gateway
  pending : ∀ id ∈ sim.gateway.pending, known id
  context : sim.context.Alike known sim'.context
  queue : sim.queue.Alike limit known sim'.queue

namespace Alike

theorem prompts_eq (halike : sim.Alike limit known sim') (target : Target)
    (message : Message) :
    sim'.prompts target message = sim.prompts target message := by
  obtain ⟨tasks, hctx, _⟩ := halike.context
  unfold prompts
  rw [halike.gateway, hctx]
  rfl

theorem task?_eq (halike : sim.Alike limit known sim') {id : TaskId}
    (hid : known id) : sim'.context.task? id = sim.context.task? id := by
  obtain ⟨tasks, hctx, hshows⟩ := halike.context
  rw [hctx]
  exact hshows.looked id hid

theorem topology_eq (halike : sim.Alike limit known sim') :
    sim'.context.topology = sim.context.topology := by
  obtain ⟨tasks, hctx, _⟩ := halike.context
  rw [hctx]
  rfl

theorem modifyGateway (halike : sim.Alike limit known sim')
    {change : Gateway α → Gateway α}
    (hpending : ∀ id ∈ (change sim.gateway).pending, known id) :
    (sim.modifyGateway change).Alike limit known
      (sim'.modifyGateway change) :=
  ⟨congrArg change halike.gateway, hpending, halike.context, halike.queue⟩

variable [Std.TransCmp (Arith.order : α → α → Ordering)]

theorem onFinished (halike : sim.Alike limit known sim') (task : TaskId)
    (node : NodeId) :
    (sim.onFinished task node).Alike limit known
      (sim'.onFinished task node) := by
  obtain ⟨tasks, hctx, hshows⟩ := halike.context
  constructor
  case gateway =>
    unfold Simulation.onFinished
    rw [halike.gateway]
    cases sim.gateway.state with
    | idle => rfl
    | deciding => rfl
  case pending =>
    rw [onFinished_pending]
    exact halike.pending
  case context =>
    rw [onFinished_context, onFinished_context, hctx, halike.queue.now]
    obtain ⟨left, hleft, hfinished⟩ :=
      hshows.finished task node sim.queue.now
    exact ⟨left, hfinished, hleft⟩
  case queue =>
    unfold Simulation.onFinished
    rw [halike.gateway]
    cases sim.gateway.state with
    | idle => exact halike.queue.schedule _ _ fun _ hid => nomatch hid
    | deciding => exact halike.queue

theorem heard (halike : sim.Alike limit known sim') (target : Target)
    {message : Message}
    (hmessage : ∀ id, message.task? = some id → known id) :
    (sim.heard target message).Alike limit known
      (sim'.heard target message) := by
  cases target with
  | datacenter id =>
      cases message with
      | taskSubmit task node =>
          simp only [Simulation.heard, runOnDatacenter, halike.topology_eq,
            halike.task?_eq (hmessage task rfl)]
          split
          next =>
            exact ⟨halike.gateway, halike.pending, halike.context,
              halike.queue.schedule _ _ hmessage⟩
          next => exact halike
      | taskArrival task => exact halike
      | gatewayWake => exact halike
      | decisionDue => exact halike
      | taskFinished task node => exact halike
  | gateway =>
      cases message with
      | taskArrival task =>
          unfold Simulation.heard
          apply halike.modifyGateway
          intro id hid
          rcases List.mem_append.mp hid with hpending | hnew
          · exact halike.pending id hpending
          · rw [List.mem_singleton.mp hnew]
            exact hmessage task rfl
      | gatewayWake =>
          unfold Simulation.heard
          exact halike.modifyGateway halike.pending
      | decisionDue =>
          simp only [Simulation.heard, halike.gateway]
          split
          next => exact halike
          next => exact halike.modifyGateway halike.pending
      | taskSubmit task node => exact halike
      | taskFinished task node =>
          exact halike.onFinished task node

theorem enact (halike : sim.Alike limit known sim') {decision : Decision α}
    (hdecision : ∀ id, decision.task? = some id → known id) :
    (sim.enact decision).Alike limit known (sim'.enact decision) := by
  have hdispatch : (sim.dispatch decision).Alike limit known
      (sim'.dispatch decision) := by
    obtain ⟨outcome, cost⟩ := decision
    cases outcome with
    | assigned task node transfer =>
        simp only [dispatch, halike.topology_eq]
        split
        next => exact halike.queue.schedule _ _ hdecision
        next => exact halike.queue
    | dropped task => exact halike.queue
    | rejected node => exact halike.queue
    | noCapacity => exact halike.queue
  constructor
  case gateway => simp only [Simulation.enact, halike.gateway]
  case pending =>
    intro id hid
    simp only [Simulation.enact] at hid
    split at hid
    next => exact halike.pending id (List.mem_of_mem_filter hid)
    next => exact halike.pending id hid
  case context => exact halike.context
  case queue => exact hdispatch.schedule _ _ fun _ hid => by cases hid

theorem decide (halike : sim.Alike limit known sim')
    (policy : Policy (StateM σ) α) :
    Coupled (SameEnd Eq (Alike limit known)) (sim.decide policy)
      (sim'.decide policy) := by
  obtain ⟨tasks, hctx, hshows⟩ := halike.context
  unfold Simulation.decide
  rw [halike.gateway, halike.queue.now, hctx]
  refine (sim.gateway.strategy.decide_coupled policy hshows halike.pending
    sim.queue.now).bind ?_
  rintro ⟨_, _, ctx⟩ ⟨result, strategy, ctx'⟩ ⟨rfl, rfl, hafter, hknown⟩
  have hbefore : Simulation.Alike limit known
      { sim with
        gateway := { sim.gateway with strategy := strategy }
        context := ctx }
      { sim' with
        gateway := { sim.gateway with strategy := strategy }
        context := ctx' } :=
    ⟨rfl, halike.pending, hafter, halike.queue⟩
  rcases result with fault | _ | decision
  · exact .pure ⟨.error rfl, hbefore⟩
  · exact .pure ⟨.ok (), hbefore⟩
  · exact .pure ⟨.ok (), hbefore.enact fun id => hknown decision id rfl⟩

theorem delivers (halike : sim.Alike limit known sim')
    (policy : Policy (StateM σ) α) :
    DeliversAlike Eq (Alike limit known) policy policy (.limit limit) sim
      sim' := by
  rcases halike.queue.pop with ⟨hnone, hnone'⟩ |
    ⟨event, popped, popped', hpop, hpop', hpopped, hevent⟩
  · left
    simp only [next?, hnone, hnone', Option.map_none, and_self]
  · right
    have hnext : Simulation.Alike limit known { sim with queue := popped }
        { sim' with queue := popped' } :=
      ⟨halike.gateway, halike.pending, halike.context, hpopped⟩
    refine ⟨event, _, _, congrArg _ hpop, congrArg _ hpop', ?_⟩
    have hheard := hnext.heard event.target hevent
    rw [deliver_eq, deliver_eq, hnext.prompts_eq]
    split
    next => exact hheard.decide policy
    next => exact .pure ⟨.ok (), hheard⟩

end Alike

/-- What is left of two episodes that went alike. -/
structure LeftAlike (known : TaskId → Prop) (sim sim' : Simulation α) :
    Prop where
  gateway : sim'.gateway = sim.gateway
  context : sim.context.Alike known sim'.context
  now : sim'.queue.now = sim.queue.now

theorem Alike.left (halike : sim.Alike limit known sim') :
    sim.LeftAlike known sim' :=
  ⟨halike.gateway, halike.context, halike.queue.now⟩

theorem Alike.closed (halike : sim.Alike limit known sim') :
    (sim.closeClock (.limit limit)).LeftAlike known
      (sim'.closeClock (.limit limit)) :=
  ⟨halike.gateway, halike.context,
    congrArg (Time.later · limit) halike.queue.now⟩

end Simulation

/-- Two numbered lists of tasks that differ only in tasks that arrive after the
limit. -/
structure SameUntil (limit : Time α) (tasks tasks' : List (Task α)) :
    Prop where
  length_eq : tasks'.length = tasks.length
  numbered : ∀ (index : Nat) (task : Task α),
    tasks[index]? = some task → task.id = ⟨index⟩
  numbered' : ∀ (index : Nat) (task : Task α),
    tasks'[index]? = some task → task.id = ⟨index⟩
  agree : ∀ (index : Nat) (task task' : Task α), tasks[index]? = some task →
    tasks'[index]? = some task' → task' = task ∨
      task.arrival.isAfter limit = true ∧ task'.arrival.isAfter limit = true

variable {limit : Time α} {tasks tasks' : List (Task α)}

/-- The two lists have the same task at a place, or none. -/
def KnownIn (tasks tasks' : List (Task α)) (id : TaskId) : Prop :=
  tasks'[id.index]? = tasks[id.index]?

namespace SameUntil

theorem known_or_late (hsame : SameUntil limit tasks tasks') :
    List.Forall₂ (fun task task' =>
      (task' = task ∧ KnownIn tasks tasks' task.id) ∨
        task.arrival.isBy limit = false ∧ task'.arrival.isBy limit = false)
      tasks tasks' := by
  rw [List.forall₂_iff_get]
  refine ⟨hsame.length_eq.symm, ?_⟩
  intro index hindex hindex'
  have htask := List.getElem?_eq_getElem hindex
  have htask' := List.getElem?_eq_getElem hindex'
  rcases hsame.agree index _ _ htask htask' with heq | ⟨hlate, hlate'⟩
  · left
    refine ⟨heq, ?_⟩
    have hid := hsame.numbered index _ htask
    change tasks'[tasks[index].id.index]? = tasks[tasks[index].id.index]?
    rw [hid, htask, htask', heq]
  · right
    rw [Time.isBy_eq_not_isAfter, Time.isBy_eq_not_isAfter]
    exact ⟨congrArg not hlate, congrArg not hlate'⟩

theorem start_shows (hsame : SameUntil limit tasks tasks') (ctx : Context α)
    (number : Nat) (jobs : List Job) :
    (ctx.startEpisode number jobs tasks).Shows (KnownIn tasks tasks')
      tasks' := by
  refine ⟨fun id hid => hid, ?_, by simp [Context.startEpisode]⟩
  intro id task _ htask
  exact hsame.numbered id.index task htask

variable [Std.TransCmp (Arith.order : α → α → Ordering)]

theorem foldl_push_alike {known : TaskId → Prop}
    (hpairs : List.Forall₂ (fun task task' =>
      (task' = task ∧ known task.id) ∨
        task.arrival.isBy limit = false ∧ task'.arrival.isBy limit = false)
      tasks tasks') {queue queue' : EventQueue α}
    (hqueue : queue.Alike limit known queue') :
    (tasks.foldl (fun queue task =>
        queue.push task.arrival .gateway (.taskArrival task.id))
          queue).Alike limit known
      (tasks'.foldl (fun queue task =>
        queue.push task.arrival .gateway (.taskArrival task.id)) queue') := by
  induction hpairs generalizing queue queue' with
  | nil => exact hqueue
  | @cons task task' rest rest' hpair hrest ih =>
      apply ih
      rcases hpair with ⟨rfl, hknown⟩ | ⟨hlate, hlate'⟩
      · apply hqueue.push
        rintro _ ⟨⟩
        exact hknown
      · exact hqueue.push_late hlate hlate' _ _ _ _

theorem start_alike (hsame : SameUntil limit tasks tasks')
    (gateway : Gateway α) (ctx : Context α) (number : Nat)
    (jobs : List Job) :
    (Episode.initial gateway.reset
      (ctx.startEpisode number jobs tasks)).Alike limit
        (KnownIn tasks tasks')
      (Episode.initial gateway.reset
        (ctx.startEpisode number jobs tasks')) := by
  constructor
  case gateway => rfl
  case pending =>
    intro id hid
    exact nomatch hid
  case context => exact ⟨tasks', rfl, hsame.start_shows ctx number jobs⟩
  case queue =>
    apply foldl_push_alike hsame.known_or_late
    refine ⟨EventQueue.empty_ordered, EventQueue.empty_ordered, rfl, rfl, rfl,
      ?_⟩
    intro event hevent
    exact nomatch hevent

end SameUntil

/-- How two episodes end that nobody can tell apart, with all that they have
asked. -/
structure Episode.Indistinct
    (one other : (Except Fault (Time α) × Simulation α) ×
      (List (Request α) × σ)) : Prop where
  requests : other.2.1 = one.2.1
  service : other.2.2 = one.2.2
  result : other.1.1 = one.1.1
  gateway : other.1.2.gateway = one.1.2.gateway
  now : other.1.2.queue.now = one.1.2.queue.now
  topology : other.1.2.context.topology = one.1.2.context.topology
  jobs : other.1.2.context.jobs = one.1.2.context.jobs
  running : other.1.2.context.running = one.1.2.context.running
  metrics : other.1.2.context.metrics = one.1.2.context.metrics
  closed : ∀ clock, (other.1.2.context.finishEpisode clock).metrics =
    (one.1.2.context.finishEpisode clock).metrics

theorem Episode.indistinct_of_alike
    {one other : (Except Fault (Time α) × Simulation α) ×
      (List (Request α) × σ)}
    (hend : SameEnd Eq (Simulation.LeftAlike known) one.1 other.1)
    (hmemory : other.2 = one.2) : Indistinct one other := by
  obtain ⟨⟨result, final⟩, memory⟩ := one
  obtain ⟨⟨result', gateway, ctx, queue⟩, memory'⟩ := other
  obtain ⟨hresult, hgateway, ⟨tasks, hctx, hshows⟩, hnow⟩ := hend
  obtain rfl : ctx = final.context.withTasks tasks := hctx
  obtain rfl : memory' = memory := hmemory
  have hclosed : ∀ clock,
      ((final.context.withTasks tasks).finishEpisode clock).metrics =
        (final.context.finishEpisode clock).metrics := by
    intro clock
    rw [Context.finishEpisode, Context.finishEpisode,
      hshows.releaseFinished_withTasks]
    rfl
  exact ⟨rfl, rfl, hresult.eq.symm, hgateway, hnow, rfl, rfl, rfl, rfl,
    hclosed⟩

/-- An episode with a time limit does not look ahead: tasks that arrive after
the limit make no difference to what it asks, how it ends and what it leaves. -/
theorem Episode.no_lookahead
    [Std.TransCmp (Arith.order : α → α → Ordering)]
    (hsame : SameUntil limit tasks tasks') (gateway : Gateway α)
    (ctx : Context α) (number allotted : Nat) (jobs : List Job)
    (policy : Policy (StateM σ) α) (memory : σ) :
    let ended tasks := (Episode.run allotted policy.recorded (.limit limit)
      gateway.reset (ctx.startEpisode number jobs tasks)).run ([], memory)
    Indistinct (ended tasks) (ended tasks') := by
  intro ended
  have hcoupled : Coupled (SameEnd Eq (Simulation.LeftAlike
        (KnownIn tasks tasks')))
      (Episode.run allotted policy.recorded (.limit limit) gateway.reset
        (ctx.startEpisode number jobs tasks))
      (Episode.run allotted policy.recorded (.limit limit) gateway.reset
        (ctx.startEpisode number jobs tasks')) := by
    exact run_coupled rfl (fun _ _ => Simulation.Alike.left)
      (fun _ _ => Simulation.Alike.closed)
      (fun _ _ halike => Simulation.Alike.delivers halike policy.recorded)
      (fun _ _ => Simulation.LeftAlike.now) allotted
      (hsame.start_alike gateway ctx number jobs)
  obtain ⟨hend, hmemory⟩ := hcoupled ([], memory)
  exact indistinct_of_alike hend hmemory

namespace Sample

/-- The tasks of the small episode and one that arrives after them. -/
def followed (arrival : Nat) : List (Task Binary64) :=
  dataset.tasks ++ [task 2 arrival]

theorem followed_numbered (arrival index : Nat)
    (other : FogDispatch.Task Binary64)
    (htask : (followed arrival)[index]? = some other) :
    other.id = ⟨index⟩ := by
  rcases index with _ | _ | _ | index
  · cases htask
    rfl
  · cases htask
    rfl
  · cases htask
    rfl
  · exact nomatch htask

theorem followed_same_until :
    SameUntil ⟨whole 4⟩ (followed 5) (followed 9) := by
  refine ⟨by simp [followed], followed_numbered 5, followed_numbered 9, ?_⟩
  intro index one other hone hother
  rcases index with _ | _ | _ | index
  · cases hone
    cases hother
    exact Or.inl rfl
  · cases hone
    cases hother
    exact Or.inl rfl
  · cases hone
    cases hother
    exact Or.inr (by decide +kernel)
  · exact nomatch hone

end Sample

/-- Up to the fourth second it makes no difference whether a third task arrives
in the fifth or in the ninth. -/
theorem Episode.sample_no_lookahead :
    let ended tasks := (Episode.run 20 Sample.service.recorded
      (.limit ⟨Sample.whole 4⟩) Sample.gateway.reset
      (Sample.context.startEpisode 0 Sample.dataset.jobs tasks)).run ([], ())
    Indistinct (ended (Sample.followed 5)) (ended (Sample.followed 9)) ∧
      (ended (Sample.followed 5)).2.1 ≠ [] := by
  intro ended
  refine ⟨no_lookahead Sample.followed_same_until Sample.gateway
    Sample.context 0 20 Sample.dataset.jobs Sample.service (), ?_⟩
  have hasked : (ended (Sample.followed 5)).2.1.isEmpty = false := by
    decide +kernel
  intro hnone
  rw [hnone] at hasked
  exact nomatch hasked

end FogDispatch
