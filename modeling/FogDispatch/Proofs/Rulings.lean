import FogDispatch.Proofs.Actions
import FogDispatch.Proofs.Deadlines
import FogDispatch.Proofs.Requests

/-!
# Rulings

A consultation is a case analysis.  Nothing is asked unless a waiting task is
admitted once the finished tasks are released.  An answer is then ruled on by
what it points at: the service may pass, point nowhere, or point at a task and a
node, of which the node may be busy and the task too late there.  Each ruling
has its own effect on the strategy and on the context, and no other one.
-/

namespace FogDispatch

variable {α σ : Type}

/-- Tasks and nodes stand at the places of their ids, and whatever waits is a
task of the context. -/
structure Context.Indexed (ctx : Context α) (pending : List TaskId) :
    Prop where
  task_id : ∀ id task, ctx.task? id = some task → task.id = id
  node_id : ∀ id node, ctx.topology.node? id = some node → node.id = id
  known : ∀ id ∈ pending, ∃ task, ctx.task? id = some task

/-- The service acknowledges every reward and every lesson. -/
structure Policy.Acknowledges (policy : Policy (StateM σ) α) : Prop where
  rewards : ∀ number score memory, ∃ text,
    ((policy.ask (.saveReward number score)).run memory).1 = .ok text
  lessons : ∀ number state memory, ∃ text,
    ((policy.ask (.retrain number state)).run memory).1 = .ok text

theorem Context.Indexed.node?_of_mem {ctx : Context α} {pending : List TaskId}
    (hindexed : ctx.Indexed pending) {node : Node α}
    (hnode : node ∈ ctx.topology.candidates) :
    ctx.topology.node? node.id = some node := by
  obtain ⟨index, hindex⟩ :=
    List.mem_iff_getElem?.mp (List.mem_of_mem_filter hnode)
  rw [hindexed.node_id ⟨index⟩ node hindex]
  exact hindex

/-! ## The choice -/

namespace Context

variable [Arith α] (ctx : Context α) (task : Task α) (node : Node α)
  (now : Time α) (answer : Answer α)

theorem sampled_network : (ctx.sampled now answer).network = ctx.network :=
  ctx.releaseFinished_network now

theorem startOn_sampled (cost : Span α) :
    (ctx.sampled now answer).startOn task node now cost =
      ctx.startOn task node now cost := by
  rw [startOn, sampled_network, startOn]

theorem misses_sampled (cost : Span α) :
    (ctx.sampled now answer).misses task node now cost =
      ctx.misses task node now cost := by
  rw [misses, startOn_sampled, misses]

theorem score_sampled (cost : Span α) :
    (ctx.sampled now answer).score task node now cost =
      ctx.score task node now cost := by
  rw [score, misses_sampled, score]

end Context

namespace Strategy

variable [Arith α] {policy : Policy (StateM σ) α} {strategy next : Strategy α}
  {pending : List TaskId} {ctx left : Context α} {now : Time α}
  {before middle after : σ} {answer : Answer α} {action : List Int}
  {i j : Nat} {task : Task α} {node : Node α}

/-- The action points at places of the offered tasks and of the candidates, and
this task and this node stand there. -/
structure Chooses (strategy : Strategy α) (pending : List TaskId)
    (ctx : Context α) (now : Time α) (action : List Int) (i j : Nat)
    (task : Task α) (node : Node α) : Prop where
  points : Points (strategy.offers pending ctx now).length
    ctx.topology.candidates.length strategy.kind action i j
  offered : (strategy.offers pending ctx now)[i]? = some task.id
  task_eq : ctx.task? task.id = some task
  node_eq : ctx.topology.candidates[j]? = some node

theorem Chooses.unique {i' j' : Nat} {task' : Task α} {node' : Node α}
    (hchooses : strategy.Chooses pending ctx now action i j task node)
    (hother : strategy.Chooses pending ctx now action i' j' task' node') :
    task' = task ∧ node' = node := by
  obtain ⟨rfl, rfl⟩ := hchooses.points.unique hother.points
  have hid : task'.id = task.id := by
    have hoffered := hother.offered
    rw [hchooses.offered] at hoffered
    exact (Option.some.inj hoffered).symm
  have htask := hother.task_eq
  have hnode := hother.node_eq
  rw [hid, hchooses.task_eq] at htask
  rw [hchooses.node_eq] at hnode
  exact ⟨(Option.some.inj htask).symm, (Option.some.inj hnode).symm⟩

/-- A task and a node stand wherever an action points. -/
theorem exists_chooses (hindexed : ctx.Indexed pending)
    (hpoints : Points (strategy.offers pending ctx now).length
      ctx.topology.candidates.length strategy.kind action i j) :
    ∃ task node, strategy.Chooses pending ctx now action i j task node := by
  obtain ⟨hi, hj⟩ := hpoints.lt
  have hoffered := List.getElem?_eq_getElem hi
  obtain ⟨task, htask⟩ := hindexed.known _
    (mem_offers (List.mem_of_getElem? hoffered)).1
  refine ⟨task, _, hpoints, ?_, ?_, List.getElem?_eq_getElem hj⟩
  · rw [hindexed.task_id _ task htask]
    exact hoffered
  · rw [hindexed.task_id _ task htask]
    exact htask

/-- What an action chooses is what the answer names. -/
theorem Chooses.names (hindexed : ctx.Indexed pending)
    (hchooses : strategy.Chooses pending ctx now answer.action i j task node) :
    strategy.Names pending ctx now answer task.id node.id task node where
  chosen := by
    rw [Answer.isNoCapacity, beq_eq_false_iff_ne]
    exact hchooses.points.head?_ne
  resolved := by
    rw [Context.sampled_topology, resolve?_eq_some_iff, Topology.candidateIds,
      List.length_map]
    refine ⟨i, j, hchooses.points, hchooses.offered, ?_⟩
    rw [List.getElem?_map, hchooses.node_eq]
    rfl
  task_eq := by
    rw [Context.sampled_task?]
    exact hchooses.task_eq
  node_eq := by
    rw [Context.sampled_topology]
    exact hindexed.node?_of_mem (List.mem_of_getElem? hchooses.node_eq)

/-! ## What a consultation runs through -/

theorem decide_silent (hoffers : strategy.offers pending ctx now = []) :
    (strategy.decide pending ctx policy now).run before =
      (⟨.ok none, strategy, ctx.releaseFinished now⟩, before) := by
  have hempty : (Strategy.offered strategy.kind
      (pending.filter (ctx.releaseFinished now).admits)).isEmpty = true :=
    List.isEmpty_iff.mpr hoffers
  unfold decide
  rw [if_pos hempty]
  rfl

theorem Asked.decide_eq
    (hasked : strategy.Asked policy pending ctx now before answer middle) :
    (strategy.decide pending ctx policy now).run before =
      (strategy.follow (ctx.releaseFinished now) policy now
        (strategy.offers pending ctx now) (strategy.view pending ctx now)
        answer).run middle := by
  obtain ⟨hoffers, raw, hask, hread⟩ := hasked
  have hnonempty : ¬ (Strategy.offered strategy.kind
      (pending.filter (ctx.releaseFinished now).admits)).isEmpty = true :=
    fun hempty => hoffers (List.isEmpty_iff.mp hempty)
  unfold decide
  rw [if_neg hnonempty]
  refine (run_bind_eq hask).trans ?_
  dsimp only
  rw [hread]
  rfl

theorem follow_full (hfull : answer.isNoCapacity = true) :
    (strategy.follow (ctx.releaseFinished now) policy now
        (strategy.offers pending ctx now) (strategy.view pending ctx now)
        answer).run middle =
      (⟨.ok (some ⟨.noCapacity, answer.cost⟩), strategy,
        ctx.sampled now answer⟩, middle) := by
  unfold follow
  rw [if_pos hfull]
  rfl

theorem follow_unresolved (hchosen : answer.isNoCapacity = false)
    (hresolved : resolve? strategy.kind (strategy.offers pending ctx now)
      (ctx.sampled now answer).topology.candidateIds answer.action = none) :
    (strategy.follow (ctx.releaseFinished now) policy now
        (strategy.offers pending ctx now) (strategy.view pending ctx now)
        answer).run middle =
      (⟨.error (.action answer.action
          (ctx.sampled now answer).topology.candidateIds.length), strategy,
        ctx.sampled now answer⟩, middle) := by
  rw [Context.sampled] at hresolved
  unfold follow
  rw [if_neg (by simp [hchosen]), hresolved]
  rfl

theorem Names.follow_eq {id : TaskId} {place : NodeId}
    (hnames : strategy.Names pending ctx now answer id place task node) :
    (strategy.follow (ctx.releaseFinished now) policy now
        (strategy.offers pending ctx now) (strategy.view pending ctx now)
        answer).run middle =
      (strategy.act (ctx.sampled now answer) policy now
        (strategy.view pending ctx now) answer.cost task node).run middle := by
  have hresolved := hnames.resolved
  have htask := hnames.task_eq
  have hnode := hnames.node_eq
  rw [Context.sampled] at hresolved htask hnode
  unfold follow
  rw [if_neg (by simp [hnames.chosen]), hresolved]
  dsimp only
  rw [htask, hnode]
  rfl

theorem act_busy {state : List α} {cost : Span α}
    (hbusy : node.isIdle = false) :
    (strategy.act ctx policy now state cost task node).run middle =
      (⟨.ok (some ⟨if ctx.topology.anyCandidateIdle then .rejected node.id
        else .noCapacity, cost⟩), strategy, ctx⟩, middle) := by
  unfold act
  rw [if_neg (by simp [hbusy])]
  split <;> rfl

theorem act_idle {state : List α} {cost : Span α} {result : Except Fault Unit}
    (hidle : node.isIdle = true)
    (hfeedback : (strategy.feedback policy (ctx.score task node now cost)
      state).run middle = ((result, next), after)) :
    (strategy.act ctx policy now state cost task node).run middle =
      (⟨result.map fun _ => some (weigh ctx task node now cost), next,
        (if ctx.misses task node now cost then ctx.givenUp task
          else ctx.bound task node now cost).measure
            (·.recordReward (ctx.score task node now cost))⟩, after) := by
  unfold act
  rw [if_pos hidle, place_eq]
  dsimp only
  rw [run_bind_eq hfeedback]
  cases result <;> rfl

omit [Arith α] in
/-- An acknowledged decision counts. -/
theorem feedback_acknowledged (hacks : policy.Acknowledges)
    (strategy : Strategy α) (score : α) (state : List α) (before : σ) :
    ∃ after, (strategy.feedback policy score state).run before =
      ((.ok (), { strategy with number := strategy.number + 1 }), after) := by
  unfold feedback
  cases hsave : (policy.ask (.saveReward strategy.number score)).run before with
  | mk reply middle =>
      obtain ⟨text, hreply⟩ := hacks.rewards strategy.number score before
      rw [hsave] at hreply
      subst hreply
      rw [run_bind_eq hsave]
      dsimp only
      split
      next => exact ⟨middle, rfl⟩
      next =>
        cases hlearn : (policy.ask (.retrain (strategy.number - 1) state)).run
            middle with
        | mk reply after =>
            obtain ⟨text, hreply⟩ :=
              hacks.lessons (strategy.number - 1) state middle
            rw [hlearn] at hreply
            subst hreply
            rw [run_bind_eq hlearn]
            exact ⟨after, rfl⟩

/-! ## The cases -/

/-- What an answer comes to, and the strategy and the context that it leaves. -/
inductive Rules (strategy : Strategy α) (pending : List TaskId)
    (ctx : Context α) (now : Time α) (answer : Answer α) : Cycle α → Prop
  | full (hfull : answer.action.head? = some (-1)) :
      Rules strategy pending ctx now answer
        ⟨.ok (some ⟨.noCapacity, answer.cost⟩), strategy,
          ctx.sampled now answer⟩
  | amiss (hhead : answer.action.head? ≠ some (-1))
      (hamiss : Amiss (strategy.offers pending ctx now).length
        ctx.topology.candidates.length strategy.kind answer.action) :
      Rules strategy pending ctx now answer
        ⟨.error (.action answer.action ctx.topology.candidates.length),
          strategy, ctx.sampled now answer⟩
  | crowded {i j : Nat} {task : Task α} {node : Node α}
      (hchooses : strategy.Chooses pending ctx now answer.action i j task node)
      (hbusy : node.isIdle = false)
      (hnone : ctx.topology.anyCandidateIdle = false) :
      Rules strategy pending ctx now answer
        ⟨.ok (some ⟨.noCapacity, answer.cost⟩), strategy,
          ctx.sampled now answer⟩
  | rejected {i j : Nat} {task : Task α} {node : Node α}
      (hchooses : strategy.Chooses pending ctx now answer.action i j task node)
      (hbusy : node.isIdle = false)
      (hsome : ctx.topology.anyCandidateIdle = true) :
      Rules strategy pending ctx now answer
        ⟨.ok (some ⟨.rejected node.id, answer.cost⟩), strategy,
          ctx.sampled now answer⟩
  | dropped {i j : Nat} {task : Task α} {node : Node α}
      (hchooses : strategy.Chooses pending ctx now answer.action i j task node)
      (hidle : node.isIdle = true)
      (hmissed : ctx.misses task node now answer.cost = true) :
      Rules strategy pending ctx now answer
        ⟨.ok (some ⟨.dropped task.id, answer.cost⟩),
          { strategy with number := strategy.number + 1 },
          ((ctx.sampled now answer).givenUp task).measure
            (·.recordReward (ctx.score task node now answer.cost))⟩
  | assigned {i j : Nat} {task : Task α} {node : Node α}
      (hchooses : strategy.Chooses pending ctx now answer.action i j task node)
      (hidle : node.isIdle = true)
      (hmeets : ctx.misses task node now answer.cost = false) :
      Rules strategy pending ctx now answer
        ⟨.ok (some ⟨.assigned task.id node.id
            (ctx.network.transferDelay node.datacenter task.storage),
            answer.cost⟩),
          { strategy with number := strategy.number + 1 },
          ((ctx.sampled now answer).bound task node now answer.cost).measure
            (·.recordReward (ctx.score task node now answer.cost))⟩

/-- Some case applies to every answer. -/
theorem exists_rules (hindexed : ctx.Indexed pending)
    (hoffers : strategy.offers pending ctx now ≠ []) (answer : Answer α) :
    ∃ cycle, strategy.Rules pending ctx now answer cycle := by
  by_cases hfull : answer.action.head? = some (-1)
  · exact ⟨_, .full hfull⟩
  by_cases hamiss : Amiss (strategy.offers pending ctx now).length
      ctx.topology.candidates.length strategy.kind answer.action
  · exact ⟨_, .amiss hfull hamiss⟩
  obtain ⟨i, j, hpoints⟩ :=
    (exists_points_iff (List.length_pos_iff.mpr hoffers)).mpr hamiss
  obtain ⟨task, node, hchooses⟩ := exists_chooses hindexed hpoints
  cases hstate : node.isIdle with
  | false =>
      cases hidle : ctx.topology.anyCandidateIdle with
      | false => exact ⟨_, .crowded hchooses hstate hidle⟩
      | true => exact ⟨_, .rejected hchooses hstate hidle⟩
  | true =>
      cases hmissed : ctx.misses task node now answer.cost with
      | true => exact ⟨_, .dropped hchooses hstate hmissed⟩
      | false => exact ⟨_, .assigned hchooses hstate hmissed⟩

theorem resolve?_eq_none_of_amiss {kind : StrategyKind}
    {offered : List TaskId} {nodes : List NodeId} {action : List Int}
    (hoffered : offered ≠ [])
    (hamiss : Amiss offered.length nodes.length kind action) :
    resolve? kind offered nodes action = none := by
  refine Option.eq_none_iff_forall_ne_some.mpr fun named hresolved => ?_
  obtain ⟨i, j, hpoints, _⟩ := resolve?_eq_some_iff.mp hresolved
  exact (exists_points_iff (List.length_pos_iff.mpr hoffered)).mp
    ⟨i, j, hpoints⟩ hamiss

/-- The case that applies is what happens. -/
theorem Rules.decide_eq {cycle : Cycle α} (hindexed : ctx.Indexed pending)
    (hacks : policy.Acknowledges)
    (hasked : strategy.Asked policy pending ctx now before answer middle)
    (hrules : strategy.Rules pending ctx now answer cycle) :
    ((strategy.decide pending ctx policy now).run before).1 = cycle := by
  have htopology : (ctx.sampled now answer).topology = ctx.topology :=
    Context.sampled_topology ctx now answer
  have hlength : (ctx.sampled now answer).topology.candidateIds.length =
      ctx.topology.candidates.length := by
    rw [htopology, Topology.candidateIds, List.length_map]
  rw [hasked.decide_eq]
  cases hrules with
  | full hfull =>
      rw [follow_full (by simp [Answer.isNoCapacity, hfull])]
  | amiss hhead hamiss =>
      rw [← hlength] at hamiss ⊢
      have hchosen : answer.isNoCapacity = false := by
        simpa [Answer.isNoCapacity] using hhead
      rw [follow_unresolved hchosen
        (resolve?_eq_none_of_amiss hasked.offers_ne_nil hamiss)]
  | crowded hchooses hbusy hnone =>
      rw [(hchooses.names hindexed).follow_eq, act_busy hbusy, htopology,
        if_neg (by simp [hnone])]
  | rejected hchooses hbusy hsome =>
      rw [(hchooses.names hindexed).follow_eq, act_busy hbusy, htopology,
        if_pos hsome]
  | @dropped i j task node hchooses hidle hmissed =>
      obtain ⟨after, hfeedback⟩ := feedback_acknowledged hacks strategy
        ((ctx.sampled now answer).score task node now answer.cost)
        (strategy.view pending ctx now) middle
      rw [(hchooses.names hindexed).follow_eq, act_idle hidle hfeedback,
        weigh_of_network (ctx.sampled_network now answer), ctx.misses_sampled,
        ctx.score_sampled, weigh, if_pos hmissed, if_pos hmissed]
      rfl
  | @assigned i j task node hchooses hidle hmeets =>
      obtain ⟨after, hfeedback⟩ := feedback_acknowledged hacks strategy
        ((ctx.sampled now answer).score task node now answer.cost)
        (strategy.view pending ctx now) middle
      have hmeets' : ¬ ctx.misses task node now answer.cost = true := by
        simp [hmeets]
      rw [(hchooses.names hindexed).follow_eq, act_idle hidle hfeedback,
        weigh_of_network (ctx.sampled_network now answer), ctx.misses_sampled,
        ctx.score_sampled, weigh,
        if_neg hmeets', if_neg hmeets']
      rfl

/-- A cycle is ruled by the one case that applies. -/
theorem Asked.rules_iff {cycle : Cycle α} (hindexed : ctx.Indexed pending)
    (hacks : policy.Acknowledges)
    (hasked : strategy.Asked policy pending ctx now before answer middle) :
    strategy.Rules pending ctx now answer cycle ↔
      ((strategy.decide pending ctx policy now).run before).1 = cycle := by
  constructor
  · exact Rules.decide_eq hindexed hacks hasked
  · rintro rfl
    obtain ⟨cycle, hrules⟩ := exists_rules hindexed hasked.offers_ne_nil answer
    rw [hrules.decide_eq hindexed hacks hasked]
    exact hrules

/-! ## The ruling -/

/-- When each result of an answer comes about. -/
structure Ruled (strategy : Strategy α) (pending : List TaskId)
    (ctx : Context α) (now : Time α) (answer : Answer α) (cycle : Cycle α) :
    Prop where
  noCapacity_iff :
    cycle.result = .ok (some ⟨.noCapacity, answer.cost⟩) ↔
      answer.action.head? = some (-1) ∨ ∃ i j task node,
        strategy.Chooses pending ctx now answer.action i j task node ∧
          node.isIdle = false ∧ ctx.topology.anyCandidateIdle = false
  invalid_iff :
    cycle.result =
        .error (.action answer.action ctx.topology.candidates.length) ↔
      answer.action.head? ≠ some (-1) ∧
        Amiss (strategy.offers pending ctx now).length
          ctx.topology.candidates.length strategy.kind answer.action
  rejected_iff : ∀ place,
    cycle.result = .ok (some ⟨.rejected place, answer.cost⟩) ↔
      ∃ i j task node,
        strategy.Chooses pending ctx now answer.action i j task node ∧
          node.id = place ∧ node.isIdle = false ∧
          ctx.topology.anyCandidateIdle = true
  dropped_iff : ∀ id,
    cycle.result = .ok (some ⟨.dropped id, answer.cost⟩) ↔
      ∃ i j task node,
        strategy.Chooses pending ctx now answer.action i j task node ∧
          task.id = id ∧ node.isIdle = true ∧
          (now + answer.cost +
              ctx.network.transferDelay node.datacenter task.storage +
            node.runningTime task.length).isAfter task.deadline = true
  assigned_iff : ∀ id place transfer,
    cycle.result = .ok (some ⟨.assigned id place transfer, answer.cost⟩) ↔
      ∃ i j task node,
        strategy.Chooses pending ctx now answer.action i j task node ∧
          task.id = id ∧ node.id = place ∧
          ctx.network.transferDelay node.datacenter task.storage = transfer ∧
          node.isIdle = true ∧
          (now + answer.cost + transfer +
            node.runningTime task.length).isAfter task.deadline = false
  exhaustive :
    (∃ outcome, cycle.result = .ok (some ⟨outcome, answer.cost⟩)) ∨
      cycle.result =
        .error (.action answer.action ctx.topology.candidates.length)

/-- Everything that an answer changes, by its result. -/
structure Leaves (strategy : Strategy α) (pending : List TaskId)
    (ctx : Context α) (now : Time α) (answer : Answer α) (cycle : Cycle α) :
    Prop where
  unchanged :
    (∀ id, cycle.result ≠ .ok (some ⟨.dropped id, answer.cost⟩)) →
    (∀ id place transfer,
      cycle.result ≠ .ok (some ⟨.assigned id place transfer, answer.cost⟩)) →
    cycle.strategy = strategy ∧ cycle.context = ctx.sampled now answer
  given_up : ∀ i j task node,
    strategy.Chooses pending ctx now answer.action i j task node →
    cycle.result = .ok (some ⟨.dropped task.id, answer.cost⟩) →
    cycle.strategy = { strategy with number := strategy.number + 1 } ∧
      cycle.context = (ctx.sampled now answer).measure fun m =>
        { m with
          rewards := m.rewards ++ [reward task.priority
            (node.runningTime task.length) task.window true]
          violations := m.violations.bump task.priority
          violatedTasks := m.violatedTasks ++ [task.id] }
  placed : ∀ i j task node transfer,
    strategy.Chooses pending ctx now answer.action i j task node →
    cycle.result =
      .ok (some ⟨.assigned task.id node.id transfer, answer.cost⟩) →
    cycle.strategy = { strategy with number := strategy.number + 1 } ∧
      cycle.context =
        { ctx.sampled now answer with
          tasks := (ctx.sampled now answer).tasks.modify task.id.index
            fun t =>
              { t with
                node := some node.id
                decisionCost := answer.cost
                start := some (now + answer.cost + transfer) }
          topology := ctx.topology.markBusy node.id
          jobs := (ctx.sampled now answer).jobs.addRunning task
          running := (ctx.sampled now answer).running ++ [task.id]
          metrics := (ctx.sampled now answer).metrics.modify fun m =>
            { m with
              rewards := m.rewards ++ [reward task.priority
                (node.runningTime task.length) task.window false]
              deviceBusy :=
                m.deviceBusy.add node.host (node.runningTime task.length) } }

section

variable {cycle : Cycle α} (hrules : ∀ other,
  strategy.Rules pending ctx now answer other ↔ cycle = other)

include hrules

theorem ruled_of_rules : strategy.Ruled pending ctx now answer cycle := by
  have hcycle := (hrules cycle).mpr rfl
  constructor
  case noCapacity_iff =>
    constructor
    · intro hresult
      cases hcycle with
      | full hfull => exact .inl hfull
      | crowded hchooses hbusy hnone =>
          exact .inr ⟨_, _, _, _, hchooses, hbusy, hnone⟩
      | _ => cases hresult
    · rintro (hfull | ⟨i, j, task, node, hchooses, hbusy, hnone⟩)
      · rw [(hrules _).mp (.full hfull)]
      · rw [(hrules _).mp (.crowded hchooses hbusy hnone)]
  case invalid_iff =>
    constructor
    · intro hresult
      cases hcycle with
      | amiss hhead hamiss => exact ⟨hhead, hamiss⟩
      | _ => cases hresult
    · rintro ⟨hhead, hamiss⟩
      rw [(hrules _).mp (.amiss hhead hamiss)]
  case rejected_iff =>
    intro place
    constructor
    · intro hresult
      cases hcycle with
      | rejected hchooses hbusy hsome =>
          cases hresult
          exact ⟨_, _, _, _, hchooses, rfl, hbusy, hsome⟩
      | _ => cases hresult
    · rintro ⟨i, j, task, node, hchooses, rfl, hbusy, hsome⟩
      rw [(hrules _).mp (.rejected hchooses hbusy hsome)]
  case dropped_iff =>
    intro id
    constructor
    · intro hresult
      cases hcycle with
      | dropped hchooses hidle hmissed =>
          cases hresult
          exact ⟨_, _, _, _, hchooses, rfl, hidle, hmissed⟩
      | _ => cases hresult
    · rintro ⟨i, j, task, node, hchooses, rfl, hidle, hmissed⟩
      rw [(hrules _).mp (.dropped hchooses hidle hmissed)]
  case assigned_iff =>
    intro id place transfer
    constructor
    · intro hresult
      cases hcycle with
      | assigned hchooses hidle hmeets =>
          cases hresult
          exact ⟨_, _, _, _, hchooses, rfl, rfl, rfl, hidle, hmeets⟩
      | _ => cases hresult
    · rintro ⟨i, j, task, node, hchooses, rfl, rfl, rfl, hidle, hmeets⟩
      rw [(hrules _).mp (.assigned hchooses hidle hmeets)]
  case exhaustive =>
    cases hcycle with
    | amiss => exact .inr rfl
    | _ => exact .inl ⟨_, rfl⟩

theorem leaves_of_rules : strategy.Leaves pending ctx now answer cycle := by
  have hcycle := (hrules cycle).mpr rfl
  constructor
  case unchanged =>
    intro hdropped hassigned
    cases hcycle with
    | dropped => exact (hdropped _ rfl).elim
    | assigned => exact (hassigned _ _ _ rfl).elim
    | _ => exact ⟨rfl, rfl⟩
  case given_up =>
    intro i j task node hchooses hresult
    cases hcycle with
    | dropped hother hidle hmissed =>
        obtain ⟨rfl, rfl⟩ := hother.unique hchooses
        refine ⟨rfl, ?_⟩
        rw [Context.score, hmissed]
        rfl
    | _ => cases hresult
  case placed =>
    intro i j task node transfer hchooses hresult
    cases hcycle with
    | assigned hother hidle hmeets =>
        obtain ⟨rfl, rfl⟩ := hother.unique hchooses
        cases hresult
        refine ⟨rfl, ?_⟩
        rw [Context.score, hmeets, Context.bound, Context.startOn_sampled,
          Context.sampled_topology]
        rfl
    | _ => cases hresult

end

/-! ## The question -/

/-- A program that only adds to the record. -/
def Grows {β : Type} (program : StateM (List (Request α) × σ) β) : Prop :=
  ∀ before, before.1 <+: (program.run before).2.1

section

omit [Arith α]

theorem grows_pure {β : Type} (value : β) :
    Grows (pure value : StateM (List (Request α) × σ) β) :=
  fun before => List.prefix_refl before.1

theorem grows_ask (policy : Policy (StateM σ) α) (request : Request α) :
    Grows (policy.recorded.ask request) :=
  fun before => List.prefix_append before.1 [request]

theorem Grows.bind {β γ : Type}
    {first : StateM (List (Request α) × σ) β}
    {rest : β → StateM (List (Request α) × σ) γ} (hfirst : Grows first)
    (hrest : ∀ value, Grows (rest value)) : Grows (first >>= rest) := by
  intro before
  cases hrun : first.run before with
  | mk value middle =>
      have hmiddle : before.1 <+: middle.1 := by
        have hgrown := hfirst before
        rwa [hrun] at hgrown
      rw [run_bind_eq hrun]
      exact hmiddle.trans (hrest value middle)

/-- What is asked first is said first. -/
theorem sentBy_ask_bind {β : Type} (policy : Policy (StateM σ) α)
    (request : Request α)
    {rest : Except Fault String → StateM (List (Request α) × σ) β}
    (hrest : ∀ reply, Grows (rest reply)) (memory : σ) :
    ∃ later, sentBy (policy.recorded.ask request >>= rest) memory =
      request :: later := by
  obtain ⟨later, hlater⟩ := hrest ((policy.ask request).run memory).1
    ([request], ((policy.ask request).run memory).2)
  exact ⟨later, hlater.symm⟩

theorem grows_feedback (policy : Policy (StateM σ) α)
    (strategy : Strategy α) (score : α) (state : List α) :
    Grows (strategy.feedback policy.recorded score state) := by
  unfold feedback
  refine (grows_ask policy _).bind fun saved => ?_
  cases saved with
  | error fault => exact grows_pure _
  | ok _ =>
      dsimp only
      split
      next => exact grows_pure _
      next =>
        refine (grows_ask policy _).bind fun learnt => ?_
        cases learnt <;> exact grows_pure _

end

theorem grows_act (policy : Policy (StateM σ) α) (strategy : Strategy α)
    (ctx : Context α) (now : Time α) (state : List α) (cost : Span α)
    (task : Task α) (node : Node α) :
    Grows (strategy.act ctx policy.recorded now state cost task node) := by
  unfold act
  split
  next =>
    refine (grows_feedback policy strategy _ state).bind fun reply => ?_
    obtain ⟨result, next⟩ := reply
    cases result <;> exact grows_pure _
  next => split <;> exact grows_pure _

theorem grows_follow (policy : Policy (StateM σ) α) (strategy : Strategy α)
    (ctx : Context α) (now : Time α) (offered : List TaskId)
    (state : List α) (answer : Answer α) :
    Grows (strategy.follow ctx policy.recorded now offered state answer) := by
  unfold follow
  dsimp only
  split
  next => exact grows_pure _
  next =>
    split
    next => exact grows_pure _
    next =>
      split
      next => exact grows_act policy strategy _ now state answer.cost _ _
      next => exact grows_pure _

/-- If anything is offered then the question is the first thing that is
said. -/
theorem sentBy_decide (policy : Policy (StateM σ) α)
    (hoffers : strategy.offers pending ctx now ≠ []) (memory : σ) :
    ∃ later, sentBy (strategy.decide pending ctx policy.recorded now) memory =
      .askDecision strategy.number (strategy.view pending ctx now) ::
        later := by
  have hnonempty : ¬ (Strategy.offered strategy.kind
      (pending.filter (ctx.releaseFinished now).admits)).isEmpty = true :=
    fun hempty => hoffers (List.isEmpty_iff.mp hempty)
  unfold decide
  rw [if_neg hnonempty]
  refine sentBy_ask_bind policy _ (fun reply => ?_) memory
  cases reply with
  | error fault => exact grows_pure _
  | ok raw =>
      dsimp only
      split
      next => exact grows_pure _
      next => exact grows_follow policy strategy _ now _ _ _

/-! ## The case analysis -/

end Strategy

/-! ## A consultation of the small episode -/

namespace Sample

/-- Every answer takes a second and names the second task and the first
candidate, with a number to spare. -/
def chooser : Policy (StateM Unit) Binary64 :=
  ⟨fun _ => pure (.ok "1,0d1,0,7")⟩

def scheduler : Strategy Binary64 :=
  Strategy.fresh .joint ⟨whole 1, whole 1, true⟩

def opening : Context Binary64 :=
  context.startEpisode 0 dataset.jobs dataset.tasks

theorem opening_indexed : opening.Indexed [⟨0⟩, ⟨1⟩] where
  task_id id task htask := (Simulation.start_task? dataset_fresh htask).1
  node_id :=
    have hbooks : first.sim.Books :=
      Moment.start_books dataset_fresh topology_built
    hbooks.occupancy.numbered
  known id hid := by
    rcases List.mem_pair.mp hid with rfl | rfl
    · exact ⟨_, rfl⟩
    · exact ⟨_, rfl⟩

theorem chooser_acknowledges : chooser.Acknowledges :=
  ⟨fun _ _ _ => ⟨_, rfl⟩, fun _ _ _ => ⟨_, rfl⟩⟩

def chosen : Answer Binary64 := ⟨⟨whole 1⟩, whole 0, [1, 0, 7]⟩

theorem chooser_asked : scheduler.Asked chooser [⟨0⟩, ⟨1⟩] opening ⟨whole 2⟩
    () chosen () :=
  ⟨by decide, _, rfl, by rfl⟩

theorem chooser_chooses : scheduler.Chooses [⟨0⟩, ⟨1⟩] opening ⟨whole 2⟩
    chosen.action 1 0 (task 1 2) (Node.ofSpec 0 ⟨0⟩ .cloud device) where
  points := .joint (by decide +kernel) (by decide +kernel)
  offered := by decide +kernel
  task_eq := rfl
  node_eq := rfl

def ruling : Cycle Binary64 :=
  ((scheduler.decide [⟨0⟩, ⟨1⟩] opening chooser ⟨whole 2⟩).run ()).1

end Sample
end FogDispatch
