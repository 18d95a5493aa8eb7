import FogDispatch.Proofs.Consultation

/-!
# Tasks on nodes

A node hosts the tasks that are placed on it and not yet finished.  Nodes are
marked busy by placements and idle by completions, and the marks agree with
what the nodes host as long as only idle candidates are given tasks.
-/

namespace FogDispatch

variable {α : Type}

namespace Context

def hosts (ctx : Context α) (node : NodeId) (id : TaskId) : Bool :=
  match ctx.task? id with
  | some task => task.node == some node && task.finish.isNone
  | none => false

theorem hosts_iff {ctx : Context α} {node : NodeId} {id : TaskId} :
    ctx.hosts node id = true ↔
      ∃ task, ctx.task? id = some task ∧ task.node = some node ∧
        task.finish = none := by
  unfold hosts
  cases htask : ctx.task? id <;> simp

/-- A node is busy exactly while it hosts a task, and only candidates host
tasks, at most one each. -/
structure Occupancy (ctx : Context α) : Prop where
  numbered : ∀ id node, ctx.topology.node? id = some node → node.id = id
  busy_iff : ∀ place node, ctx.topology.node? place = some node →
    (node.isIdle = false ↔ ∃ id, ctx.hosts place id = true)
  single : ∀ place id other, ctx.hosts place id = true →
    ctx.hosts place other = true → id = other
  candidate : ∀ place id, ctx.hosts place id = true →
    ∃ node, ctx.topology.node? place = some node ∧ node.isCandidate = true

theorem Occupancy.of_same {ctx other : Context α}
    (hoccupancy : ctx.Occupancy) (htopology : other.topology = ctx.topology)
    (htask : ∀ id, other.task? id = ctx.task? id) : other.Occupancy := by
  have hhosts : ∀ place id, other.hosts place id = ctx.hosts place id := by
    intro place id
    simp only [hosts, htask]
  constructor
  case numbered =>
    rw [htopology]
    exact hoccupancy.numbered
  case busy_iff =>
    intro place node
    simp only [hhosts, htopology]
    exact hoccupancy.busy_iff place node
  case single =>
    intro place id other
    simp only [hhosts]
    exact hoccupancy.single place id other
  case candidate =>
    intro place id
    simp only [hhosts, htopology]
    exact hoccupancy.candidate place id

/-! ## Completions -/

def finished (ctx : Context α) (id : TaskId) (node : NodeId) (now : Time α) :
    Context α :=
  { ctx.modifyTask id fun t => { t with finish := some now } with
    topology := ctx.topology.markIdle node }

theorem finished_task? (ctx : Context α) (id : TaskId) (node : NodeId)
    (now : Time α) (other : TaskId) :
    (ctx.finished id node now).task? other =
      if id = other then
        (ctx.task? other).map fun t => { t with finish := some now }
      else ctx.task? other :=
  task?_modifyTask ctx id other _

theorem isSome_finished_task? (ctx : Context α) (id : TaskId) (node : NodeId)
    (now : Time α) (other : TaskId) :
    ((ctx.finished id node now).task? other).isSome =
      (ctx.task? other).isSome := by
  rw [finished_task?]
  split
  next => exact Option.isSome_map
  next => rfl

theorem finished_node? (ctx : Context α) (id : TaskId) (node : NodeId)
    (now : Time α) (place : NodeId) :
    (ctx.finished id node now).topology.node? place =
      if node = place then (ctx.topology.node? place).map Node.markIdle
      else ctx.topology.node? place :=
  Topology.node?_modifyNode ctx.topology node place _

/-- A completion of a hosted task changes nothing but its finish. -/
theorem before_finished {ctx : Context α} {id : TaskId} {node : NodeId}
    (hdone : ctx.hosts node id = true) {now : Time α} {other : TaskId}
    {task : Task α} (htask : (ctx.finished id node now).task? other =
      some task) :
    ∃ before, ctx.task? other = some before ∧ task.id = before.id ∧
      task.node = before.node ∧ task.start = before.start ∧
      (task.finish = none ∨ before.node = none → task = before) := by
  obtain ⟨hosted, hhosted, hplace, _⟩ := hosts_iff.mp hdone
  rw [finished_task?] at htask
  split at htask
  next heq =>
    subst other
    rw [hhosted, Option.map_some, Option.some.injEq] at htask
    subst task
    exact ⟨hosted, hhosted, rfl, rfl, rfl, by simp [hplace]⟩
  next => exact ⟨task, htask, rfl, rfl, rfl, fun _ => rfl⟩

theorem finished_hosts (ctx : Context α) (id : TaskId) (node : NodeId)
    (now : Time α) (place : NodeId) (other : TaskId) :
    (ctx.finished id node now).hosts place other =
      if id = other then false else ctx.hosts place other := by
  by_cases heq : id = other
  · simp only [hosts, finished_task?, if_pos heq]
    cases ctx.task? other <;> simp
  · simp only [hosts, finished_task?, if_neg heq]

/-- Whether a node hosts a task, as a number, drops by one for the completed
task on its node. -/
theorem finished_hosts_add {ctx : Context α} {id : TaskId} {node : NodeId}
    (hdone : ctx.hosts node id = true) (now : Time α) (place : NodeId)
    (other : TaskId) :
    (if (ctx.finished id node now).hosts place other then 1 else 0) +
      (if id = other ∧ node = place then 1 else 0) =
        if ctx.hosts place other then 1 else 0 := by
  rw [finished_hosts]
  by_cases hother : id = other
  · subst other
    by_cases hnode : node = place
    · subst place
      simp [hdone]
    · obtain ⟨task, htask, hplace, _⟩ := hosts_iff.mp hdone
      have hnot : ctx.hosts place id = false := by
        simp [hosts, htask, hplace, hnode]
      simp [hnot, hnode]
  · simp [hother]

/-- A node that is done with its task is idle. -/
theorem Occupancy.finished {ctx : Context α} {id : TaskId} {node : NodeId}
    (hoccupancy : ctx.Occupancy) (hdone : ctx.hosts node id = true)
    (now : Time α) : (ctx.finished id node now).Occupancy := by
  have hhosts : ∀ place other,
      (ctx.finished id node now).hosts place other = true ↔
        node ≠ place ∧ ctx.hosts place other = true := by
    intro place other
    rw [finished_hosts]
    constructor
    · intro hother
      split at hother
      next => cases hother
      next hne =>
        refine ⟨?_, hother⟩
        rintro rfl
        exact hne (hoccupancy.single node id other hdone hother)
    · rintro ⟨hplace, hother⟩
      rw [if_neg]
      · exact hother
      · rintro rfl
        obtain ⟨task, htask, hnode, _⟩ := hosts_iff.mp hdone
        obtain ⟨task', htask', hnode', _⟩ := hosts_iff.mp hother
        obtain rfl : task = task' := by simpa [htask] using htask'
        exact hplace (by simpa [hnode] using hnode')
  constructor
  case numbered =>
    intro place target htarget
    rw [finished_node?] at htarget
    split at htarget
    next =>
      obtain ⟨before, hbefore, rfl⟩ := Option.map_eq_some_iff.mp htarget
      exact hoccupancy.numbered place before hbefore
    next => exact hoccupancy.numbered place target htarget
  case busy_iff =>
    intro place target htarget
    rw [finished_node?] at htarget
    simp only [hhosts]
    split at htarget
    next heq =>
      obtain ⟨before, _, rfl⟩ := Option.map_eq_some_iff.mp htarget
      constructor
      · intro hbusy
        cases hbusy
      · rintro ⟨_, hne, _⟩
        exact (hne heq).elim
    next hne =>
      rw [hoccupancy.busy_iff place target htarget]
      simp only [ne_eq, hne, not_false_eq_true, true_and]
  case single =>
    intro place one other hone hother
    rw [hhosts] at hone hother
    exact hoccupancy.single place one other hone.2 hother.2
  case candidate =>
    intro place other hother
    rw [hhosts] at hother
    rw [finished_node?, if_neg hother.1]
    exact hoccupancy.candidate place other hother.2

/-! ## Placements -/

variable [Arith α]

theorem bound_task? {ctx : Context α} {task : Task α}
    (htask : ctx.task? task.id = some task) (node : Node α) (now : Time α)
    (cost : Span α) (id : TaskId) :
    (ctx.bound task node now cost).task? id =
      if task.id = id then some { task with
        node := some node.id
        decisionCost := cost
        start := some (ctx.startOn task node now cost) }
      else ctx.task? id := by
  have hmodified : (ctx.bound task node now cost).task? id =
      if task.id = id then (ctx.task? id).map fun t => { t with
        node := some node.id
        decisionCost := cost
        start := some (ctx.startOn task node now cost) }
      else ctx.task? id :=
    task?_modifyTask _ task.id id _
  rw [hmodified]
  split
  next heq =>
    subst heq
    rw [htask, Option.map_some]
  next => rfl

theorem isSome_bound_task? {ctx : Context α} {task : Task α}
    (htask : ctx.task? task.id = some task) (node : Node α) (now : Time α)
    (cost : Span α) (id : TaskId) :
    ((ctx.bound task node now cost).task? id).isSome =
      (ctx.task? id).isSome := by
  rw [bound_task? htask]
  split
  next heq =>
    subst heq
    rw [htask]
    rfl
  next => rfl

/-- Behind a placement stands the placed task with its marks, and every other task as
it was. -/
theorem bound_task?_cases {ctx : Context α} {task : Task α}
    (htask : ctx.task? task.id = some task) {node : Node α} {now : Time α}
    {cost : Span α} {id : TaskId} {other : Task α}
    (hother : (ctx.bound task node now cost).task? id = some other) :
    (task.id = id ∧ other = { task with
      node := some node.id
      decisionCost := cost
      start := some (ctx.startOn task node now cost) }) ∨
    (task.id ≠ id ∧ ctx.task? id = some other) := by
  rw [bound_task? htask] at hother
  split at hother
  next heq => exact .inl ⟨heq, (Option.some.inj hother).symm⟩
  next hne => exact .inr ⟨hne, hother⟩

theorem bound_node? (ctx : Context α) (task : Task α) (node : Node α)
    (now : Time α) (cost : Span α) (place : NodeId) :
    (ctx.bound task node now cost).topology.node? place =
      if node.id = place then (ctx.topology.node? place).map Node.markBusy
      else ctx.topology.node? place :=
  Topology.node?_modifyNode ctx.topology node.id place _

theorem count_running_bound (ctx : Context α) (task : Task α) (node : Node α)
    (now : Time α) (cost : Span α) (id : TaskId) :
    (ctx.bound task node now cost).running.count id =
      ctx.running.count id + if task.id = id then 1 else 0 := by
  change (ctx.running ++ [task.id]).count id = _
  rw [List.count_append, List.count_singleton]
  simp only [beq_iff_eq]

theorem bound_hosts {ctx : Context α} {task : Task α}
    (htask : ctx.task? task.id = some task) (hopen : task.finish = none)
    (node : Node α) (now : Time α) (cost : Span α) (place : NodeId)
    (id : TaskId) :
    (ctx.bound task node now cost).hosts place id =
      if task.id = id then node.id == place else ctx.hosts place id := by
  by_cases heq : task.id = id
  · simp [hosts, bound_task? htask, heq, hopen]
  · simp only [hosts, bound_task? htask, if_neg heq]

/-- Whether a node hosts a task, as a number, rises by one for the placed task on its
node. -/
theorem bound_hosts_add {ctx : Context α} {task : Task α}
    (htask : ctx.task? task.id = some task) (hplace : task.node = none)
    (hopen : task.finish = none) (node : Node α) (now : Time α) (cost : Span α)
    (place : NodeId) (id : TaskId) :
    (if (ctx.bound task node now cost).hosts place id then 1 else 0) =
      (if ctx.hosts place id then 1 else 0) +
        if task.id = id ∧ node.id = place then 1 else 0 := by
  rw [bound_hosts htask hopen]
  by_cases heq : task.id = id
  · subst heq
    have hnot : ctx.hosts place task.id = false := by
      simp [hosts, htask, hplace]
    simp [hnot]
  · simp [heq]

/-- An idle candidate becomes busy with the task that it is given. -/
theorem Occupancy.bound {ctx : Context α} {task : Task α} {node : Node α}
    (hoccupancy : ctx.Occupancy) (htask : ctx.task? task.id = some task)
    (hplace : task.node = none) (hopen : task.finish = none)
    (hnode : ctx.topology.node? node.id = some node)
    (hidle : node.isIdle = true) (hcandidate : node.isCandidate = true)
    (now : Time α) (cost : Span α) :
    (ctx.bound task node now cost).Occupancy := by
  have hfree : ∀ id, ctx.hosts node.id id ≠ true := by
    intro id hhosts
    have hbusy := (hoccupancy.busy_iff node.id node hnode).mpr ⟨id, hhosts⟩
    rw [hidle] at hbusy
    cases hbusy
  have hunplaced : ∀ place, ctx.hosts place task.id ≠ true := by
    intro place
    simp [hosts, htask, hplace]
  have hhosts : ∀ place id,
      (ctx.bound task node now cost).hosts place id = true ↔
        (task.id = id ∧ node.id = place) ∨ ctx.hosts place id = true := by
    intro place id
    rw [bound_hosts htask hopen]
    split
    next heq =>
      subst heq
      simp [hunplaced]
    next hne => simp [hne]
  constructor
  case numbered =>
    intro place other hother
    rw [bound_node?] at hother
    split at hother
    next heq =>
      subst heq
      rw [hnode, Option.map_some, Option.some.injEq] at hother
      subst hother
      rfl
    next => exact hoccupancy.numbered place other hother
  case busy_iff =>
    intro place other hother
    rw [bound_node?] at hother
    simp only [hhosts]
    split at hother
    next heq =>
      subst heq
      rw [hnode, Option.map_some, Option.some.injEq] at hother
      subst hother
      exact ⟨fun _ => ⟨task.id, Or.inl ⟨rfl, rfl⟩⟩, fun _ => rfl⟩
    next hne =>
      rw [hoccupancy.busy_iff place other hother]
      simp only [hne, and_false, false_or]
  case single =>
    intro place id other hid hother
    rw [hhosts] at hid hother
    rcases hid with ⟨rfl, rfl⟩ | hid
    · rcases hother with ⟨rfl, _⟩ | hother
      · rfl
      · exact (hfree other hother).elim
    · rcases hother with ⟨rfl, rfl⟩ | hother
      · exact (hfree id hid).elim
      · exact hoccupancy.single place id other hid hother
  case candidate =>
    intro place id hid
    rw [hhosts] at hid
    rw [bound_node?]
    rcases hid with ⟨rfl, rfl⟩ | hid
    · exact ⟨node.markBusy, by simp [hnode], hcandidate⟩
    · obtain ⟨target, htarget, hkind⟩ := hoccupancy.candidate place id hid
      split
      next => exact ⟨target.markBusy, by simp [htarget], hkind⟩
      next => exact ⟨target, htarget, hkind⟩

end Context
end FogDispatch
