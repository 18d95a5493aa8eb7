import FogDispatch.Dataset
import FogDispatch.Proofs.Outcomes
import FogDispatch.Topology
import Mathlib.Tactic

/-!
# Loaded datasets and built topologies

A dataset that is read from its tables holds every task at the place of its id,
with nothing known about its fate, and its jobs run nothing.  A topology that is
built from a plan holds every node at the place of its id, with nothing to do.
Episodes start from these facts and need nothing else of tables and plans.
-/

namespace FogDispatch

variable {α : Type}

/-! ## Datasets -/

/-- A task of which nothing is known but what its row says. -/
structure Task.Untouched (task : Task α) : Prop where
  node : task.node = none
  start : task.start = none
  finish : task.finish = none

instance (task : Task α) : Decidable task.Untouched :=
  decidable_of_iff (task.node = none ∧ task.start = none ∧ task.finish = none)
    ⟨fun ⟨hnode, hstart, hfinish⟩ => ⟨hnode, hstart, hfinish⟩,
      fun htask => ⟨htask.node, htask.start, htask.finish⟩⟩

/-- Tasks that are numbered from a number on. -/
structure Dataset.Numbered (first : Nat) (tasks : List (Task α)) : Prop where
  id_eq : ∀ (index : Nat) (task : Task α), tasks[index]? = some task →
    task.id = ⟨first + index⟩
  untouched : ∀ task ∈ tasks, task.Untouched

/-- A dataset before any episode. -/
structure Dataset.Fresh (dataset : Dataset α) : Prop where
  numbered : Dataset.Numbered 0 dataset.tasks
  unentered : ∀ job ∈ dataset.jobs, job.running = []

namespace Dataset

theorem numbered_nil (first : Nat) :
    Numbered first ([] : List (Task α)) := by
  constructor <;> simp

theorem Numbered.cons {first : Nat} {task : Task α} {rest : List (Task α)}
    (hid : task.id = ⟨first⟩) (huntouched : task.Untouched)
    (hrest : Numbered (first + 1) rest) : Numbered first (task :: rest) := by
  constructor
  · intro index other hother
    cases index with
    | zero =>
        obtain rfl : task = other := by simpa using hother
        exact hid
    | succ index =>
        rw [hrest.id_eq index other (by simpa using hother),
          TaskId.mk.injEq]
        omega
  · intro other hother
    rcases List.mem_cons.mp hother with rfl | hmem
    · exact huntouched
    · exact hrest.untouched other hmem

theorem Numbered.append {first : Nat} {tasks more : List (Task α)}
    (htasks : Numbered first tasks)
    (hmore : Numbered (first + tasks.length) more) :
    Numbered first (tasks ++ more) := by
  constructor
  · intro index task htask
    by_cases hindex : index < tasks.length
    · rw [List.getElem?_append_left hindex] at htask
      exact htasks.id_eq index task htask
    · rw [List.getElem?_append_right (by omega)] at htask
      rw [hmore.id_eq _ task htask, TaskId.mk.injEq]
      omega
  · intro task htask
    rcases List.mem_append.mp htask with hmem | hmem
    · exact htasks.untouched task hmem
    · exact hmore.untouched task hmem

theorem map_id_eq {tasks : List (Task α)}
    (hid : ∀ (index : Nat) (task : Task α), tasks[index]? = some task →
      task.id = ⟨index⟩) :
    tasks.map Task.id = (List.range tasks.length).map TaskId.mk := by
  apply List.ext_getElem?
  intro index
  rw [List.getElem?_map, List.getElem?_map]
  by_cases hindex : index < tasks.length
  · rw [List.getElem?_eq_getElem hindex, List.getElem?_range hindex,
      Option.map_some, Option.map_some,
      hid index tasks[index] (List.getElem?_eq_getElem hindex)]
  · rw [List.getElem?_eq_none (by omega),
      List.getElem?_eq_none (by rw [List.length_range]; omega)]
    rfl

theorem Fresh.id_eq {dataset : Dataset α} (hdataset : dataset.Fresh)
    (index : Nat) (task : Task α) (htask : dataset.tasks[index]? = some task) :
    task.id = ⟨index⟩ := by
  rw [hdataset.numbered.id_eq index task htask, Nat.zero_add]

theorem fresh_iff {dataset : Dataset α} : dataset.Fresh ↔
    dataset.tasks.map Task.id =
        (List.range dataset.tasks.length).map TaskId.mk ∧
      (∀ task ∈ dataset.tasks, task.Untouched) ∧
      ∀ job ∈ dataset.jobs, job.running = [] := by
  constructor
  · intro hdataset
    exact ⟨map_id_eq hdataset.id_eq, hdataset.numbered.untouched,
      hdataset.unentered⟩
  · rintro ⟨hids, huntouched, hjobs⟩
    refine ⟨⟨?_, huntouched⟩, hjobs⟩
    intro index task htask
    have hindex := (List.getElem?_eq_some_iff.mp htask).1
    have hid := congrArg (·[index]?) hids
    simp only [List.getElem?_map, htask, List.getElem?_range hindex,
      Option.map_some, Option.some.injEq] at hid
    rw [hid, Nat.zero_add]

instance (dataset : Dataset α) : Decidable dataset.Fresh :=
  decidable_of_iff' _ fresh_iff

theorem count_id_eq {tasks : List (Task α)}
    (hid : ∀ (index : Nat) (task : Task α), tasks[index]? = some task →
      task.id = ⟨index⟩) (id : TaskId) :
    (tasks.map Task.id).count id =
      if (tasks[id.index]?).isSome then 1 else 0 := by
  have hnodup : (tasks.map Task.id).Nodup := by
    rw [map_id_eq hid]
    apply List.nodup_range.map
    intro one other hsame
    exact (TaskId.mk.injEq one other).mp hsame
  have hmem : id ∈ tasks.map Task.id ↔ id.index < tasks.length := by
    rw [map_id_eq hid, List.mem_map]
    constructor
    · rintro ⟨index, hindex, rfl⟩
      exact List.mem_range.mp hindex
    · intro hindex
      exact ⟨id.index, List.mem_range.mpr hindex, rfl⟩
  by_cases hindex : id.index < tasks.length
  · rw [List.count_eq_one_of_mem hnodup (hmem.mpr hindex), if_pos]
    rw [List.getElem?_eq_getElem hindex]
    rfl
  · rw [List.count_eq_zero_of_not_mem (fun h => hindex (hmem.mp h)), if_neg]
    rw [List.getElem?_eq_none (by omega)]
    simp

variable [Arith α]

theorem readJob_ok {row : Row} {offset : α} {job : Job}
    (hread : readJob row = .ok (offset, job)) : job.running = [] := by
  unfold readJob at hread
  obtain ⟨id, _, hread⟩ := bind_ok hread
  obtain ⟨submission, _, hread⟩ := bind_ok hread
  obtain ⟨cs, _, hread⟩ := bind_ok hread
  cases hgroups : Groups.read? cs with
  | none =>
      rw [hgroups] at hread
      cases hread
  | some groups =>
      rw [hgroups] at hread
      obtain ⟨maxParallel, _, hread⟩ := bind_ok hread
      cases hread
      rfl

theorem readTask_ok {scale offset : α} {job : JobId} {id : TaskId} {row : Row}
    {task : Task α} (hread : readTask scale job offset id row = .ok task) :
    task.id = id ∧ task.Untouched := by
  unfold readTask at hread
  obtain ⟨submission, _, hread⟩ := bind_ok hread
  obtain ⟨level, _, hread⟩ := bind_ok hread
  cases hpriority : Priority.ofLevel? level with
  | none =>
      rw [hpriority] at hread
      cases hread
  | some priority =>
      rw [hpriority] at hread
      obtain ⟨localId, _, hread⟩ := bind_ok hread
      obtain ⟨deadline, _, hread⟩ := bind_ok hread
      obtain ⟨length, _, hread⟩ := bind_ok hread
      obtain ⟨memory, _, hread⟩ := bind_ok hread
      obtain ⟨storage, _, hread⟩ := bind_ok hread
      cases hread
      exact ⟨rfl, rfl, rfl, rfl⟩

theorem takeTasks_ok {scale offset : α} {job : JobId} {rows left : List Row}
    {first : Nat} {tasks : List (Task α)}
    (htake : takeTasks scale job offset first rows = .ok (tasks, left)) :
    Numbered first tasks := by
  induction rows generalizing first tasks left with
  | nil =>
      cases htake
      exact numbered_nil first
  | cons row rest ih =>
      unfold takeTasks at htake
      obtain ⟨owner, _, htake⟩ := bind_ok htake
      split at htake
      next =>
        obtain ⟨task, hread, htake⟩ := bind_ok htake
        obtain ⟨⟨taken, unread⟩, hrest, htake⟩ := bind_ok htake
        cases htake
        obtain ⟨hid, huntouched⟩ := readTask_ok hread
        exact Numbered.cons hid huntouched (ih hrest)
      next =>
        cases htake
        exact numbered_nil first

theorem about_ok {β : Type} {table : DatasetTable}
    {result : Except DatasetFault β} {value : β}
    (hresult : about table result = .ok value) : result = .ok value := by
  cases result with
  | error fault => cases hresult
  | ok other =>
      cases hresult
      rfl

theorem joinRows_ok {scale offset : α} {first : Nat}
    {jobRows taskRows : List Row} {jobs : List Job} {tasks : List (Task α)}
    (hjoin : joinRows scale offset first jobRows taskRows =
      .ok (jobs, tasks)) :
    Numbered first tasks ∧ ∀ job ∈ jobs, job.running = [] := by
  induction jobRows generalizing offset first taskRows jobs tasks with
  | nil =>
      cases taskRows with
      | nil =>
          cases hjoin
          exact ⟨numbered_nil first, by simp⟩
      | cons stray rest =>
          unfold joinRows at hjoin
          obtain ⟨job, _, hjoin⟩ := bind_ok hjoin
          cases hjoin
  | cons jobRow jobRows ih =>
      unfold joinRows at hjoin
      obtain ⟨⟨submission, job⟩, hjob, hjoin⟩ := bind_ok hjoin
      obtain ⟨⟨taken, left⟩, htake, hjoin⟩ := bind_ok hjoin
      obtain ⟨⟨others, more⟩, hrest, hjoin⟩ := bind_ok hjoin
      cases hjoin
      obtain ⟨hmore, hothers⟩ := ih hrest
      refine ⟨(takeTasks_ok (about_ok htake)).append hmore, ?_⟩
      intro other hother
      rcases List.mem_cons.mp hother with rfl | hmem
      · exact readJob_ok (about_ok hjob)
      · exact hothers other hmem

/-- Whatever the two tables hold, a dataset that is read from them is fresh. -/
theorem ofContents_fresh {plan : DatasetPlan α}
    {jobs tasks : Option ByteArray} {dataset : Dataset α}
    (hload : ofContents plan jobs tasks = .ok dataset) : dataset.Fresh := by
  unfold ofContents at hload
  obtain ⟨jobRows, _, hload⟩ := bind_ok hload
  obtain ⟨taskRows, _, hload⟩ := bind_ok hload
  cases hjoin : joinRows plan.runtimeScale Arith.zero 0 jobRows taskRows with
  | error fault =>
      rw [hjoin] at hload
      cases hload
  | ok pair =>
      rw [hjoin] at hload
      obtain ⟨jobs, tasks⟩ := pair
      cases hload
      obtain ⟨hnumbered, hjobs⟩ := joinRows_ok hjoin
      exact ⟨hnumbered, hjobs⟩

end Dataset

/-! ## Topologies -/

namespace Topology

theorem reset_modifyNode (topology : Topology α) (id : NodeId)
    {change : Node α → Node α}
    (hchange : ∀ node, (change node).markIdle = node.markIdle) :
    (topology.modifyNode id change).reset = topology.reset := by
  rw [reset, reset, Topology.mk.injEq]
  refine ⟨?_, rfl⟩
  apply List.ext_getElem?
  intro index
  simp only [modifyNode, List.getElem?_map, List.getElem?_modify]
  split
  next => cases topology.nodes[index]? <;> simp [hchange]
  next => simp

theorem reset_markBusy (topology : Topology α) (id : NodeId) :
    (topology.markBusy id).reset = topology.reset :=
  topology.reset_modifyNode id fun _ => rfl

theorem reset_markIdle (topology : Topology α) (id : NodeId) :
    (topology.markIdle id).reset = topology.reset :=
  topology.reset_modifyNode id fun _ => rfl

theorem candidates_reset (topology : Topology α) :
    topology.reset.candidates = topology.candidates.map Node.markIdle := by
  rw [candidates, reset, List.filter_map]
  rfl

@[simp] theorem reset_reset (topology : Topology α) :
    topology.reset.reset = topology.reset := by
  rw [reset, reset, List.map_map]
  rfl

theorem length_candidates_of_reset {topology other : Topology α}
    (hreset : topology.reset = other.reset) :
    topology.candidates.length = other.candidates.length := by
  have hcandidates := congrArg (fun t => t.candidates.length) hreset
  simpa only [candidates_reset, List.length_map] using hcandidates

variable [Arith α]

/-- Some plan gives the topology, up to what its nodes run at present. -/
def Built (topology : Topology α) : Prop :=
  ∃ plan, ofPlan plan = .ok topology.reset

theorem ofPlan_ok {plan : TopologyPlan α} {topology : Topology α}
    (hplan : ofPlan plan = .ok topology) :
    topology = ofPlanUnchecked plan ∧ topology.candidates ≠ [] := by
  unfold ofPlan at hplan
  dsimp only at hplan
  split at hplan
  next => cases hplan
  next =>
    split at hplan
    next => cases hplan
    next hcandidates =>
      split at hplan
      next => cases hplan
      next =>
        cases hplan
        exact ⟨rfl, by simpa using hcandidates⟩

theorem node?_ofPlanUnchecked {plan : TopologyPlan α} {id : NodeId}
    {node : Node α} (hnode : (ofPlanUnchecked plan).node? id = some node) :
    node.id = id ∧ node.isIdle = true := by
  unfold node? ofPlanUnchecked at hnode
  simp only [List.getElem?_mapIdx, Option.map_eq_some_iff] at hnode
  obtain ⟨device, _, rfl⟩ := hnode
  exact ⟨rfl, rfl⟩

theorem Built.node? {topology : Topology α} (hbuilt : topology.Built)
    {id : NodeId} {node : Node α}
    (hnode : topology.reset.node? id = some node) :
    node.id = id ∧ node.isIdle = true := by
  obtain ⟨plan, hplan⟩ := hbuilt
  rw [(ofPlan_ok hplan).1] at hnode
  exact node?_ofPlanUnchecked hnode

theorem Built.candidates_ne_nil {topology : Topology α}
    (hbuilt : topology.Built) : topology.candidates ≠ [] := by
  obtain ⟨plan, hplan⟩ := hbuilt
  have hreset := (ofPlan_ok hplan).2
  rw [candidates_reset] at hreset
  intro hnone
  exact hreset (by rw [hnone, List.map_nil])

theorem built_of_ofPlan {plan : TopologyPlan α} {topology : Topology α}
    (hplan : ofPlan plan = .ok topology) : topology.Built := by
  refine ⟨plan, ?_⟩
  have hreset : topology.reset = topology := by
    rw [(ofPlan_ok hplan).1]
    unfold reset ofPlanUnchecked
    rw [Topology.mk.injEq]
    refine ⟨?_, rfl⟩
    apply List.ext_getElem?
    intro index
    simp only [List.getElem?_map, List.getElem?_mapIdx, Option.map_map]
    rfl
  rw [hreset]
  exact hplan

end Topology
end FogDispatch
