import FogDispatch.Context
import Mathlib.Tactic

/-!
# The sweep of finished tasks

The sweep takes the finished tasks out of the running list and enters each of
them once as completed.  It changes nothing else but the running lists of the
jobs: no task, no node, no reward and no count of missed deadlines.
-/

namespace FogDispatch

variable {α : Type}

namespace Topology

@[simp] theorem node?_modifyNode (topology : Topology α) (id other : NodeId)
    (change : Node α → Node α) :
    (topology.modifyNode id change).node? other =
      if id = other then (topology.node? other).map change
      else topology.node? other := by
  simp only [node?, modifyNode, List.getElem?_modify]
  cases id
  cases other
  simp only [NodeId.mk.injEq]
  split <;> simp

end Topology

namespace Context

@[simp] theorem task?_modifyTask (ctx : Context α) (id other : TaskId)
    (change : Task α → Task α) :
    (ctx.modifyTask id change).task? other =
      if id = other then (ctx.task? other).map change
      else ctx.task? other := by
  simp only [task?, modifyTask, List.getElem?_modify]
  cases id
  cases other
  simp only [TaskId.mk.injEq]
  split <;> simp

def violated (ctx : Context α) : List TaskId :=
  ctx.metrics.current.violatedTasks

def released (ctx : Context α) : List TaskId :=
  ctx.metrics.current.completions.map Prod.fst

variable [Arith α]

def completionOf (ctx : Context α) (metrics : EpisodeMetrics α) (id : TaskId) :
    EpisodeMetrics α :=
  match ctx.task? id with
  | some task => metrics.recordCompletion task
  | none => metrics

def departureOf (ctx : Context α) (jobs : JobTable) (id : TaskId) : JobTable :=
  match ctx.task? id with
  | some task => jobs.removeRunning task
  | none => jobs

/-- Releasing tasks one by one changes the jobs and the metrics alone. -/
theorem foldl_release (ids : List TaskId) (ctx : Context α) :
    ids.foldl release ctx =
      { ctx with
        jobs := ids.foldl ctx.departureOf ctx.jobs
        metrics := ctx.metrics.modify fun metrics =>
          ids.foldl ctx.completionOf metrics } := by
  induction ids generalizing ctx with
  | nil => rfl
  | cons id rest ih =>
      rw [List.foldl_cons, ih]
      cases htask : ctx.task? id with
      | none =>
          have hsame : ctx.release id = ctx := by simp [release, htask]
          simp [hsame, departureOf, completionOf, htask]
      | some task =>
          have hstep : ctx.release id =
              { ctx with jobs := ctx.jobs.removeRunning task }.measure
                (·.recordCompletion task) := by
            simp [release, htask]
          rw [hstep]
          simp only [List.foldl_cons, departureOf, completionOf, htask]
          rfl

def doneBy (ctx : Context α) (now : Time α) : List TaskId :=
  ctx.running.filter (ctx.isFinishedBy now)

theorem releaseFinished_eq (ctx : Context α) (now : Time α) :
    ctx.releaseFinished now =
      { ctx with
        jobs := (ctx.doneBy now).foldl ctx.departureOf ctx.jobs
        metrics := ctx.metrics.modify fun metrics =>
          (ctx.doneBy now).foldl ctx.completionOf metrics
        running := ctx.running.filter fun id => !ctx.isFinishedBy now id } := by
  unfold releaseFinished
  rw [foldl_release]
  rfl

@[simp] theorem releaseFinished_tasks (ctx : Context α) (now : Time α) :
    (ctx.releaseFinished now).tasks = ctx.tasks := by
  rw [releaseFinished_eq]

@[simp] theorem releaseFinished_task? (ctx : Context α) (now : Time α)
    (id : TaskId) : (ctx.releaseFinished now).task? id = ctx.task? id := by
  rw [releaseFinished_eq]
  rfl

@[simp] theorem releaseFinished_topology (ctx : Context α) (now : Time α) :
    (ctx.releaseFinished now).topology = ctx.topology := by
  rw [releaseFinished_eq]

@[simp] theorem releaseFinished_network (ctx : Context α) (now : Time α) :
    (ctx.releaseFinished now).network = ctx.network := by
  rw [releaseFinished_eq]

@[simp] theorem releaseFinished_respectJobs (ctx : Context α) (now : Time α) :
    (ctx.releaseFinished now).respectJobs = ctx.respectJobs := by
  rw [releaseFinished_eq]

theorem releaseFinished_running (ctx : Context α) (now : Time α) :
    (ctx.releaseFinished now).running =
      ctx.running.filter fun id => !ctx.isFinishedBy now id := by
  rw [releaseFinished_eq]

theorem mem_doneBy {ctx : Context α} {now : Time α} {id : TaskId} :
    id ∈ ctx.doneBy now ↔ id ∈ ctx.running ∧ ∃ task finish,
      ctx.task? id = some task ∧ task.finish = some finish ∧
        finish.isBy now = true := by
  unfold doneBy
  rw [List.mem_filter]
  refine and_congr_right fun _ => ?_
  unfold isFinishedBy Task.isFinishedBy
  cases htask : ctx.task? id with
  | none => simp
  | some task => cases hfinish : task.finish <;> simp [hfinish]

/-! ## What the sweep enters -/

theorem completionOf_keeps (ctx : Context α) (metrics : EpisodeMetrics α)
    (id : TaskId) :
    (ctx.completionOf metrics id).violations = metrics.violations ∧
      (ctx.completionOf metrics id).violatedTasks = metrics.violatedTasks ∧
      (ctx.completionOf metrics id).rewards = metrics.rewards := by
  unfold completionOf
  split
  next task _ =>
    unfold EpisodeMetrics.recordCompletion
    split <;> exact ⟨rfl, rfl, rfl⟩
  next => exact ⟨rfl, rfl, rfl⟩

theorem foldl_completionOf_keeps (ctx : Context α) (ids : List TaskId)
    (metrics : EpisodeMetrics α) :
    (ids.foldl ctx.completionOf metrics).violations = metrics.violations ∧
      (ids.foldl ctx.completionOf metrics).violatedTasks =
        metrics.violatedTasks ∧
      (ids.foldl ctx.completionOf metrics).rewards = metrics.rewards := by
  induction ids generalizing metrics with
  | nil => exact ⟨rfl, rfl, rfl⟩
  | cons id rest ih =>
      obtain ⟨htally, htasks, hrewards⟩ := ih (ctx.completionOf metrics id)
      obtain ⟨htally', htasks', hrewards'⟩ := ctx.completionOf_keeps metrics id
      exact ⟨htally.trans htally', htasks.trans htasks',
        hrewards.trans hrewards'⟩

/-- Whatever no completion changes, the sweep leaves as it is. -/
theorem releaseFinished_leaves {β : Type} {figure : EpisodeMetrics α → β}
    (hfigure : ∀ metrics task,
      figure (metrics.recordCompletion task) = figure metrics)
    (ctx : Context α) (now : Time α) :
    figure (ctx.releaseFinished now).metrics.current =
      figure ctx.metrics.current := by
  have hfold : ∀ (ids : List TaskId) (metrics : EpisodeMetrics α),
      figure (ids.foldl ctx.completionOf metrics) = figure metrics := by
    intro ids
    induction ids with
    | nil => exact fun _ => rfl
    | cons id rest ih =>
        intro metrics
        rw [List.foldl_cons, ih]
        unfold completionOf
        split
        next task _ => exact hfigure metrics task
        next => rfl
  rw [releaseFinished_eq]
  exact hfold (ctx.doneBy now) ctx.metrics.current

theorem foldl_completionOf_enters (ctx : Context α) {ids : List TaskId}
    (metrics : EpisodeMetrics α)
    (hdone : ∀ id ∈ ids, ∃ task, ctx.task? id = some task ∧ task.id = id ∧
      task.finish.isSome = true) :
    (ids.foldl ctx.completionOf metrics).completions.map Prod.fst =
        metrics.completions.map Prod.fst ++ ids ∧
      (ids.foldl ctx.completionOf metrics).completed =
        metrics.completed + ids.length := by
  induction ids generalizing metrics with
  | nil => simp
  | cons id rest ih =>
      obtain ⟨task, htask, hid, hfinish⟩ := hdone id List.mem_cons_self
      obtain ⟨finish, hfinish⟩ := Option.isSome_iff_exists.mp hfinish
      obtain ⟨hentries, hcount⟩ := ih (ctx.completionOf metrics id)
        fun other hother => hdone other (List.mem_cons_of_mem id hother)
      have hstep : ctx.completionOf metrics id =
          metrics.recordCompletion task := by
        simp [completionOf, htask]
      rw [List.foldl_cons, hentries, hcount, hstep]
      simp only [EpisodeMetrics.recordCompletion, hfinish, List.map_append,
        List.map_singleton, hid, List.append_assoc, List.singleton_append,
        List.length_cons]
      exact ⟨trivial, by omega⟩

@[simp] theorem releaseFinished_violated (ctx : Context α) (now : Time α) :
    (ctx.releaseFinished now).violated = ctx.violated := by
  rw [releaseFinished_eq]
  exact (ctx.foldl_completionOf_keeps _ _).2.1

theorem releaseFinished_released {ctx : Context α} (now : Time α)
    (hnumbered : ∀ id task, ctx.task? id = some task → task.id = id) :
    (ctx.releaseFinished now).released = ctx.released ++ ctx.doneBy now ∧
      (ctx.releaseFinished now).metrics.current.completed =
        ctx.metrics.current.completed + (ctx.doneBy now).length := by
  rw [releaseFinished_eq]
  apply foldl_completionOf_enters
  intro id hid
  obtain ⟨_, task, finish, htask, hfinish, _⟩ := mem_doneBy.mp hid
  exact ⟨task, htask, hnumbered id task htask, by simp [hfinish]⟩

theorem count_doneBy (ctx : Context α) (now : Time α) (id : TaskId) :
    (ctx.doneBy now).count id =
      if ctx.isFinishedBy now id then ctx.running.count id else 0 := by
  unfold doneBy
  cases hdone : ctx.isFinishedBy now id with
  | true => simp [List.count_filter, hdone]
  | false => simp [List.count_eq_zero, hdone]

theorem count_running_releaseFinished (ctx : Context α) (now : Time α)
    (id : TaskId) :
    (ctx.releaseFinished now).running.count id =
      if ctx.isFinishedBy now id then 0 else ctx.running.count id := by
  rw [releaseFinished_running]
  cases hdone : ctx.isFinishedBy now id with
  | true => simp [List.count_eq_zero, hdone]
  | false => simp [List.count_filter, hdone]

section

variable {ctx : Context α} (now : Time α)
  (hnumbered : ∀ id task, ctx.task? id = some task → task.id = id)

include hnumbered

theorem count_released_releaseFinished (id : TaskId) :
    (ctx.releaseFinished now).released.count id = ctx.released.count id +
      if ctx.isFinishedBy now id then ctx.running.count id else 0 := by
  rw [(releaseFinished_released now hnumbered).1, List.count_append, count_doneBy]

/-- The sweep takes tasks from the running list to the released ones and loses none. -/
theorem count_placed_releaseFinished (id : TaskId) :
    (ctx.releaseFinished now).running.count id +
        (ctx.releaseFinished now).released.count id =
      ctx.running.count id + ctx.released.count id := by
  rw [count_running_releaseFinished, count_released_releaseFinished now hnumbered]
  split <;> omega

/-- The sweep does not release a task without a finish. -/
theorem count_released_of_unfinished {id : TaskId} {task : Task α}
    (htask : ctx.task? id = some task) (hfinish : task.finish = none) :
    (ctx.releaseFinished now).released.count id = ctx.released.count id := by
  have hopen : ctx.isFinishedBy now id = false := by
    simp [isFinishedBy, htask, Task.isFinishedBy, hfinish]
  rw [count_released_releaseFinished now hnumbered, hopen]
  rfl

end

end Context
end FogDispatch
