import FogDispatch.Strategy
import FogDispatch.Proofs.Sweep

/-!
# Consultations of the strategy

A decision service with a memory of any kind is a policy over that memory: it
may answer the same question differently each time.  The relation below lists
everything that one consultation without a fault can do to the strategy, to the
context and to the memory of the service.  Later arguments go through its
constructors and never open the decision cycle again.
-/

namespace FogDispatch

/-- A computation over a memory goes on from what its first part leaves. -/
theorem run_bind_eq {σ β γ : Type} {first : StateM σ β}
    {rest : β → StateM σ γ} {before middle : σ} {value : β}
    (hfirst : first.run before = (value, middle)) :
    (first >>= rest).run before = (rest value).run middle := by
  rw [StateT.run_bind, hfirst]
  rfl

theorem Strategy.feedback_ok {α σ : Type} {policy : Policy (StateM σ) α}
    {strategy next : Strategy α} {score : α} {state : List α}
    {before after : σ}
    (hrun : (strategy.feedback policy score state).run before =
      ((.ok (), next), after)) :
    next = { strategy with number := strategy.number + 1 } := by
  unfold Strategy.feedback at hrun
  cases hsave : (policy.ask (.saveReward strategy.number score)).run before with
  | mk reply middle =>
      rw [run_bind_eq hsave] at hrun
      cases reply with
      | error fault => cases hrun
      | ok _ =>
          dsimp only at hrun
          split at hrun
          next => cases hrun; rfl
          next =>
            cases hlearn : (policy.ask
                (.retrain (strategy.number - 1) state)).run middle with
            | mk reply last =>
                rw [run_bind_eq hlearn] at hrun
                cases reply with
                | error fault => cases hrun
                | ok _ => cases hrun; rfl

variable {α σ : Type} [Arith α]

def Strategy.offers (strategy : Strategy α) (pending : List TaskId)
    (ctx : Context α) (now : Time α) : List TaskId :=
  Strategy.offered strategy.kind
    (pending.filter (ctx.releaseFinished now).admits)

def Strategy.view (strategy : Strategy α) (pending : List TaskId)
    (ctx : Context α) (now : Time α) : List α :=
  Strategy.observation (ctx.releaseFinished now)
    (strategy.offers pending ctx now) now

/-- The sweep is done and the answer of the service is noted. -/
def Context.sampled (ctx : Context α) (now : Time α) (answer : Answer α) :
    Context α :=
  (ctx.releaseFinished now).measure
    (·.recordSample now answer.cost answer.cpuPercent)

@[simp] theorem Context.sampled_task? (ctx : Context α) (now : Time α)
    (answer : Answer α) (id : TaskId) :
    (ctx.sampled now answer).task? id = ctx.task? id :=
  ctx.releaseFinished_task? now id

@[simp] theorem Context.sampled_topology (ctx : Context α) (now : Time α)
    (answer : Answer α) :
    (ctx.sampled now answer).topology = ctx.topology :=
  ctx.releaseFinished_topology now

def Context.startOn (ctx : Context α) (task : Task α) (node : Node α)
    (now : Time α) (cost : Span α) : Time α :=
  now + cost + ctx.network.transferDelay node.datacenter task.storage

def Context.misses (ctx : Context α) (task : Task α) (node : Node α)
    (now : Time α) (cost : Span α) : Bool :=
  (ctx.startOn task node now cost + node.runningTime task.length).isAfter
    task.deadline

def Context.score (ctx : Context α) (task : Task α) (node : Node α)
    (now : Time α) (cost : Span α) : α :=
  reward task.priority (node.runningTime task.length) task.window
    (ctx.misses task node now cost)

def Context.bound (ctx : Context α) (task : Task α) (node : Node α)
    (now : Time α) (cost : Span α) : Context α :=
  let placed : Context α :=
    { ctx with
      topology := ctx.topology.markBusy node.id
      jobs := ctx.jobs.addRunning task
      running := ctx.running ++ [task.id] }
  (placed.measure
      (·.addDeviceBusy node.host (node.runningTime task.length))).modifyTask
    task.id fun t =>
      { t with
        node := some node.id
        decisionCost := cost
        start := some (ctx.startOn task node now cost) }

def Context.givenUp (ctx : Context α) (task : Task α) : Context α :=
  ctx.measure (·.recordViolation task)

/-- What becomes of a task that is to be placed depends on its deadline alone. -/
theorem Strategy.place_eq (ctx : Context α) (task : Task α) (node : Node α)
    (now : Time α) (cost : Span α) :
    Strategy.place ctx task node now cost =
      (if ctx.misses task node now cost then .dropped task.id
        else .assigned task.id node.id
          (ctx.network.transferDelay node.datacenter task.storage),
        ctx.score task node now cost,
        if ctx.misses task node now cost then ctx.givenUp task
        else ctx.bound task node now cost) := by
  cases hmissed : ctx.misses task node now cost with
  | true =>
      have hlate : ((now + cost +
          ctx.network.transferDelay node.datacenter task.storage) +
            node.runningTime task.length).isAfter task.deadline = true :=
        hmissed
      simp [Strategy.place, Context.score, Context.givenUp, hlate, hmissed]
  | false =>
      have hintime : ((now + cost +
          ctx.network.transferDelay node.datacenter task.storage) +
            node.runningTime task.length).isAfter task.deadline = false :=
        hmissed
      simp [Strategy.place, Context.score, Context.bound, Context.startOn,
        hintime, hmissed]

/-- The service is asked about the offered tasks, and its answer is read. -/
structure Strategy.Asked (policy : Policy (StateM σ) α)
    (strategy : Strategy α) (pending : List TaskId) (ctx : Context α)
    (now : Time α) (before : σ) (answer : Answer α) (after : σ) : Prop where
  offers_ne_nil : strategy.offers pending ctx now ≠ []
  answered : ∃ raw,
    (policy.ask (.askDecision strategy.number
      (strategy.view pending ctx now))).run before = (.ok raw, after) ∧
      Answer.read strategy.costs raw = .ok answer

/-- An answer names an offered task and a candidate node. -/
structure Strategy.Names (strategy : Strategy α) (pending : List TaskId)
    (ctx : Context α) (now : Time α) (answer : Answer α)
    (id : TaskId) (place : NodeId) (task : Task α) (node : Node α) :
    Prop where
  chosen : answer.isNoCapacity = false
  resolved : Strategy.resolve? strategy.kind (strategy.offers pending ctx now)
    (ctx.sampled now answer).topology.candidateIds answer.action =
      some (id, place)
  task_eq : (ctx.sampled now answer).task? id = some task
  node_eq : (ctx.sampled now answer).topology.node? place = some node

theorem Strategy.mem_of_pick? {β : Type} {items : List β} {index : Int}
    {item : β} (hpick : Strategy.pick? items index = some item) :
    item ∈ items := by
  unfold Strategy.pick? at hpick
  split at hpick
  next => exact List.mem_of_getElem? hpick
  next => contradiction

theorem Strategy.resolve?_mem {kind : StrategyKind} {offered : List TaskId}
    {nodes : List NodeId} {action : List Int} {id : TaskId} {place : NodeId}
    (hresolved : Strategy.resolve? kind offered nodes action =
      some (id, place)) :
    id ∈ offered ∧ place ∈ nodes := by
  cases action with
  | nil => simp [Strategy.resolve?] at hresolved
  | cons first rest =>
      cases kind with
      | placement =>
          simp only [Strategy.resolve?, Option.bind_eq_bind,
            Option.bind_eq_some_iff, Option.pure_def, Option.some.injEq,
            Prod.mk.injEq] at hresolved
          obtain ⟨node, hnode, task, htask, rfl, rfl⟩ := hresolved
          exact ⟨List.mem_of_mem_head? htask, Strategy.mem_of_pick? hnode⟩
      | joint =>
          simp only [Strategy.resolve?, Option.bind_eq_bind,
            Option.bind_eq_some_iff, Option.pure_def, Option.some.injEq,
            Prod.mk.injEq] at hresolved
          obtain ⟨task, htask, index, _, node, hnode, rfl, rfl⟩ := hresolved
          exact ⟨Strategy.mem_of_pick? htask, Strategy.mem_of_pick? hnode⟩

theorem Strategy.mem_offers {strategy : Strategy α} {pending : List TaskId}
    {ctx : Context α} {now : Time α} {id : TaskId}
    (hid : id ∈ strategy.offers pending ctx now) :
    id ∈ pending ∧ (ctx.releaseFinished now).admits id = true := by
  unfold Strategy.offers Strategy.offered at hid
  cases hkind : strategy.kind with
  | placement =>
      rw [hkind] at hid
      exact List.mem_filter.mp (List.mem_of_mem_take hid)
  | joint =>
      rw [hkind] at hid
      exact List.mem_filter.mp hid

theorem Strategy.offers_eq_nil {strategy : Strategy α}
    {pending : List TaskId} {ctx : Context α} {now : Time α} :
    strategy.offers pending ctx now = [] ↔
      pending.filter (ctx.releaseFinished now).admits = [] := by
  unfold Strategy.offers Strategy.offered
  cases strategy.kind with
  | placement =>
      rw [List.take_eq_nil_iff]
      simp only [one_ne_zero, false_or]
  | joint => exact Iff.rfl

theorem Strategy.Names.mem_pending {strategy : Strategy α}
    {pending : List TaskId} {ctx : Context α} {now : Time α}
    {answer : Answer α} {id : TaskId} {place : NodeId} {task : Task α}
    {node : Node α}
    (hnames : strategy.Names pending ctx now answer id place task node) :
    id ∈ pending :=
  (Strategy.mem_offers (Strategy.resolve?_mem hnames.resolved).1).1

/-- In a numbered topology the named node is a candidate and carries the named
id. -/
theorem Strategy.Names.node_candidate {strategy : Strategy α}
    {pending : List TaskId} {ctx : Context α} {now : Time α}
    {answer : Answer α} {id : TaskId} {place : NodeId} {task : Task α}
    {node : Node α}
    (hnames : strategy.Names pending ctx now answer id place task node)
    (hnumbered : ∀ id node, ctx.topology.node? id = some node →
      node.id = id) :
    node.id = place ∧ ctx.topology.node? place = some node ∧
      node ∈ ctx.topology.candidates := by
  have hnode : ctx.topology.node? place = some node := by
    simpa using hnames.node_eq
  have hmem : place ∈ ctx.topology.candidateIds := by
    simpa using (Strategy.resolve?_mem hnames.resolved).2
  obtain ⟨other, hother, hid⟩ := List.mem_map.mp hmem
  obtain ⟨hnodes, _⟩ := List.mem_filter.mp hother
  obtain ⟨index, hindex⟩ := List.mem_iff_getElem?.mp hnodes
  have hown : other.id = ⟨index⟩ := hnumbered ⟨index⟩ other hindex
  have hsame : ctx.topology.node? place = some other := by
    rw [← hid, hown]
    exact hindex
  obtain rfl : node = other := by simpa [hnode] using hsame
  exact ⟨hid, hnode, hother⟩

/-- Everything that a consultation without a fault can come to. -/
inductive Strategy.Consults (policy : Policy (StateM σ) α)
    (strategy : Strategy α) (pending : List TaskId) (ctx : Context α)
    (now : Time α) (before : σ) :
    Option (Decision α) → Strategy α → Context α → σ → Prop
  | silent (hoffers : strategy.offers pending ctx now = []) :
      Consults policy strategy pending ctx now before none strategy
        (ctx.releaseFinished now) before
  | full {answer : Answer α} {after : σ}
      (hasked : strategy.Asked policy pending ctx now before answer after)
      (hfull : answer.isNoCapacity = true) :
      Consults policy strategy pending ctx now before
        (some ⟨.noCapacity, answer.cost⟩) strategy (ctx.sampled now answer)
        after
  | crowded {answer : Answer α} {after : σ} {id : TaskId} {place : NodeId}
      {task : Task α} {node : Node α}
      (hasked : strategy.Asked policy pending ctx now before answer after)
      (hnames : strategy.Names pending ctx now answer id place task node)
      (hbusy : node.isIdle = false)
      (hnone : (ctx.sampled now answer).topology.anyCandidateIdle = false) :
      Consults policy strategy pending ctx now before
        (some ⟨.noCapacity, answer.cost⟩) strategy (ctx.sampled now answer)
        after
  | rejected {answer : Answer α} {after : σ} {id : TaskId} {place : NodeId}
      {task : Task α} {node : Node α}
      (hasked : strategy.Asked policy pending ctx now before answer after)
      (hnames : strategy.Names pending ctx now answer id place task node)
      (hbusy : node.isIdle = false)
      (hidle : (ctx.sampled now answer).topology.anyCandidateIdle = true) :
      Consults policy strategy pending ctx now before
        (some ⟨.rejected node.id, answer.cost⟩) strategy
        (ctx.sampled now answer) after
  | dropped {answer : Answer α} {middle after : σ} {id : TaskId}
      {place : NodeId} {task : Task α} {node : Node α}
      (hasked : strategy.Asked policy pending ctx now before answer middle)
      (hnames : strategy.Names pending ctx now answer id place task node)
      (hidle : node.isIdle = true)
      (hmissed : (ctx.sampled now answer).misses task node now answer.cost =
        true)
      (hfeedback : (strategy.feedback policy
        ((ctx.sampled now answer).score task node now answer.cost)
        (strategy.view pending ctx now)).run middle =
          ((.ok (), { strategy with number := strategy.number + 1 }), after)) :
      Consults policy strategy pending ctx now before
        (some ⟨.dropped task.id, answer.cost⟩)
        { strategy with number := strategy.number + 1 }
        (((ctx.sampled now answer).givenUp task).measure
          (·.recordReward
            ((ctx.sampled now answer).score task node now answer.cost))) after
  | assigned {answer : Answer α} {middle after : σ} {id : TaskId}
      {place : NodeId} {task : Task α} {node : Node α}
      (hasked : strategy.Asked policy pending ctx now before answer middle)
      (hnames : strategy.Names pending ctx now answer id place task node)
      (hidle : node.isIdle = true)
      (hmeets : (ctx.sampled now answer).misses task node now answer.cost =
        false)
      (hfeedback : (strategy.feedback policy
        ((ctx.sampled now answer).score task node now answer.cost)
        (strategy.view pending ctx now)).run middle =
          ((.ok (), { strategy with number := strategy.number + 1 }), after)) :
      Consults policy strategy pending ctx now before
        (some ⟨.assigned task.id node.id
          ((ctx.sampled now answer).network.transferDelay node.datacenter
            task.storage), answer.cost⟩)
        { strategy with number := strategy.number + 1 }
        (((ctx.sampled now answer).bound task node now answer.cost).measure
          (·.recordReward
            ((ctx.sampled now answer).score task node now answer.cost))) after

theorem Strategy.act_ok {policy : Policy (StateM σ) α}
    {strategy : Strategy α} {pending : List TaskId} {ctx : Context α}
    {now : Time α} {before middle after : σ} {answer : Answer α}
    {id : TaskId} {place : NodeId} {task : Task α} {node : Node α}
    {decision : Option (Decision α)} {next : Strategy α} {left : Context α}
    (hasked : strategy.Asked policy pending ctx now before answer middle)
    (hnames : strategy.Names pending ctx now answer id place task node)
    (hrun : (strategy.act (ctx.sampled now answer) policy now
      (strategy.view pending ctx now) answer.cost task node).run middle =
        (⟨.ok decision, next, left⟩, after)) :
    strategy.Consults policy pending ctx now before decision next left
      after := by
  unfold Strategy.act at hrun
  split at hrun
  next hidle =>
    rw [Strategy.place_eq] at hrun
    dsimp only at hrun
    cases hfeedback : (strategy.feedback policy
        ((ctx.sampled now answer).score task node now answer.cost)
        (strategy.view pending ctx now)).run middle with
    | mk reply last =>
        rw [run_bind_eq hfeedback] at hrun
        obtain ⟨result, advanced⟩ := reply
        cases result with
        | error fault => cases hrun
        | ok _ =>
            obtain rfl := Strategy.feedback_ok hfeedback
            cases hmissed : (ctx.sampled now answer).misses task node now
                answer.cost with
            | true =>
                simp only [hmissed, if_true] at hrun
                cases hrun
                exact .dropped hasked hnames hidle hmissed hfeedback
            | false =>
                simp only [hmissed, Bool.false_eq_true, if_false] at hrun
                cases hrun
                exact .assigned hasked hnames hidle hmissed hfeedback
  next hbusy =>
    have hbusy : node.isIdle = false := by simpa using hbusy
    split at hrun
    next hsome =>
      cases hrun
      exact .rejected hasked hnames hbusy hsome
    next hnone =>
      cases hrun
      exact .crowded hasked hnames hbusy (by simpa using hnone)

theorem Strategy.follow_ok {policy : Policy (StateM σ) α}
    {strategy : Strategy α} {pending : List TaskId} {ctx : Context α}
    {now : Time α} {before middle after : σ} {answer : Answer α}
    {decision : Option (Decision α)} {next : Strategy α} {left : Context α}
    (hasked : strategy.Asked policy pending ctx now before answer middle)
    (hrun : (strategy.follow (ctx.releaseFinished now) policy now
      (strategy.offers pending ctx now) (strategy.view pending ctx now)
      answer).run middle = (⟨.ok decision, next, left⟩, after)) :
    strategy.Consults policy pending ctx now before decision next left
      after := by
  unfold Strategy.follow at hrun
  dsimp only at hrun
  split at hrun
  next hfull =>
    cases hrun
    exact .full hasked hfull
  next hchosen =>
    split at hrun
    next => cases hrun
    next id place hresolved =>
      split at hrun
      next task node htask hnode =>
        refine Strategy.act_ok hasked ⟨?_, hresolved, htask, hnode⟩ hrun
        simpa using hchosen
      next => cases hrun

/-- A consultation without a fault is one of the listed ones. -/
theorem Strategy.decide_ok {policy : Policy (StateM σ) α}
    {strategy : Strategy α} {pending : List TaskId} {ctx : Context α}
    {now : Time α} {before after : σ}
    {decision : Option (Decision α)} {next : Strategy α} {left : Context α}
    (hrun : (strategy.decide pending ctx policy now).run before =
      (⟨.ok decision, next, left⟩, after)) :
    strategy.Consults policy pending ctx now before decision next left
      after := by
  unfold Strategy.decide at hrun
  dsimp only at hrun
  split at hrun
  next hempty =>
    cases hrun
    exact .silent (List.isEmpty_iff.mp hempty)
  next hoffers =>
    cases hask : (policy.ask (.askDecision strategy.number
        (strategy.view pending ctx now))).run before with
    | mk reply middle =>
        rw [run_bind_eq (by exact hask)] at hrun
        cases reply with
        | error fault => cases hrun
        | ok raw =>
            cases hread : Answer.read strategy.costs raw with
            | error fault =>
                simp only [hread] at hrun
                cases hrun
            | ok answer =>
                simp only [hread] at hrun
                refine Strategy.follow_ok ⟨?_, raw, hask, hread⟩ hrun
                simpa [Strategy.offers] using hoffers

end FogDispatch
