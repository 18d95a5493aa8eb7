import FogDispatch.Proofs.Roster

/-!
# Jobs keep their rules

The running list of a job is the running list of the episode, cut down to the
tasks of the job.  An admitted task keeps the bound of its job, and if it stands
in a group then every running task of the job stands in the first group that
holds it.  So one group holds all the grouped tasks that run, even where groups
overlap and although ungrouped tasks join any others.

Groups are compared by what they hold and not by their places: the running tasks
may well have several groups in common, and the first group of one of them need
not be the first group of another.
-/

namespace FogDispatch

namespace Job

def Groups (job : Job) (localId : Nat) : Prop :=
  ∃ group ∈ job.groups, localId ∈ group

/-- The running tasks are not too many, and one group holds those of them that
stand in any group. -/
structure Kept (job : Job) : Prop where
  capped : job.running.length ≤ job.maxParallel
  grouped : (∃ entry ∈ job.running, job.Groups entry.2) →
    ∃ group ∈ job.groups, ∀ entry ∈ job.running, job.Groups entry.2 →
      entry.2 ∈ group

/-- The job before any of its tasks runs. -/
def cleared (job : Job) : Job := { job with running := [] }

@[simp] theorem cleared_enter (job : Job) (id : TaskId) (localId : Nat) :
    (job.enter id localId).cleared = job.cleared := by
  unfold enter
  split <;> rfl

theorem enter_of_new {job : Job} {id : TaskId} (localId : Nat)
    (hnew : ∀ entry ∈ job.running, entry.1 ≠ id) :
    job.enter id localId =
      { job with running := job.running ++ [(id, localId)] } := by
  unfold enter
  rw [if_neg]
  intro hany
  obtain ⟨entry, hentry, heq⟩ := List.any_eq_true.mp hany
  exact hnew entry hentry (by simpa using heq)

theorem groupOf?_eq_some {job : Job} {localId : Nat} {group : List Nat}
    (hgroup : job.groupOf? localId = some group) :
    group ∈ job.groups ∧ localId ∈ group := by
  refine ⟨List.mem_of_find?_eq_some hgroup, ?_⟩
  simpa using List.find?_some hgroup

theorem not_groups_of_groupOf? {job : Job} {localId : Nat}
    (hnone : job.groupOf? localId = none) : ¬ job.Groups localId := by
  rintro ⟨group, hgroup, hmem⟩
  have hmisses := List.find?_eq_none.mp hnone group hgroup
  simp [hmem] at hmisses

theorem kept_of_idle {job : Job} (hidle : job.running = []) : job.Kept := by
  constructor
  case capped => simp [hidle]
  case grouped =>
    rintro ⟨entry, hentry, _⟩
    rw [hidle] at hentry
    cases hentry

/-- An admitted task joins the running ones by the rules. -/
theorem Kept.enter {job : Job} (hkept : job.Kept) {localId : Nat}
    (hadmits : job.admits localId = true) {id : TaskId}
    (hnew : ∀ entry ∈ job.running, entry.1 ≠ id) :
    (job.enter id localId).Kept := by
  unfold admits at hadmits
  obtain ⟨hroom, hjoins⟩ := Bool.and_eq_true_iff.mp hadmits
  rw [enter_of_new localId hnew]
  constructor
  case capped =>
    rw [List.length_append, List.length_singleton]
    exact of_decide_eq_true hroom
  case grouped =>
    intro hsome
    cases hgroup : job.groupOf? localId with
    | some group =>
        -- the first group of the task holds all that run already
        rw [hgroup] at hjoins
        obtain ⟨hmem, hself⟩ := groupOf?_eq_some hgroup
        refine ⟨group, hmem, ?_⟩
        intro entry hentry _
        rcases List.mem_append.mp hentry with hold | hlast
        · simpa using List.all_eq_true.mp hjoins entry hold
        · rw [List.mem_singleton.mp hlast]
          exact hself
    | none =>
        -- the task stands in no group, so the same tasks as before do
        have hungrouped := not_groups_of_groupOf? hgroup
        have hbefore : ∀ entry ∈ job.running ++ [(id, localId)],
            job.Groups entry.2 → entry ∈ job.running := by
          intro entry hentry hin
          rcases List.mem_append.mp hentry with hold | hlast
          · exact hold
          · rw [List.mem_singleton.mp hlast] at hin
            exact (hungrouped hin).elim
        obtain ⟨entry, hentry, hin⟩ := hsome
        obtain ⟨group, hmem, hall⟩ :=
          hkept.grouped ⟨entry, hbefore entry hentry hin, hin⟩
        exact ⟨group, hmem, fun other hother hin' =>
          hall other (hbefore other hother hin') hin'⟩

theorem Kept.leave {job : Job} (hkept : job.Kept) (id : TaskId) :
    (job.leave id).Kept := by
  have hstays : ∀ entry ∈ (job.leave id).running, entry ∈ job.running :=
    fun entry hentry => List.mem_of_mem_filter hentry
  constructor
  case capped => exact (List.length_filter_le _ _).trans hkept.capped
  case grouped =>
    rintro ⟨entry, hentry, hin⟩
    obtain ⟨group, hmem, hall⟩ :=
      hkept.grouped ⟨entry, hstays entry hentry, hin⟩
    exact ⟨group, hmem, fun other hother => hall other (hstays other hother)⟩

theorem Kept.foldl_leave (ids : List TaskId) {job : Job}
    (hkept : job.Kept) : (ids.foldl Job.leave job).Kept := by
  induction ids generalizing job with
  | nil => exact hkept
  | cons id rest ih => exact ih (hkept.leave id)

end Job

namespace JobTable

/-- The registered jobs and their rules, without what runs. -/
def cleared (table : JobTable) : JobTable := ⟨table.jobs.map Job.cleared⟩

theorem cleared_modify (table : JobTable) (id : JobId) {change : Job → Job}
    (hchange : ∀ job, (change job).cleared = job.cleared) :
    (table.modify id change).cleared = table.cleared := by
  rw [cleared, modify, List.map_map]
  congr 1
  apply List.map_congr_left
  intro job _
  rw [Function.comp_apply]
  split
  · exact hchange job
  · rfl

theorem nodup_ids_insert {table : JobTable}
    (hnodup : (table.jobs.map Job.id).Nodup) (job : Job) :
    ((table.insert job).jobs.map Job.id).Nodup := by
  rw [insert, List.map_append, List.map_singleton, List.nodup_append]
  refine ⟨?_, List.nodup_singleton _, ?_⟩
  · exact hnodup.sublist (List.filter_sublist.map _)
  · intro id hid last hlast
    obtain ⟨old, hold, rfl⟩ := List.mem_map.mp hid
    rw [List.mem_singleton.mp hlast]
    simpa using (List.mem_filter.mp hold).2

/-- No two registered jobs have one id. -/
theorem nodup_ids_ofList (jobs : List Job) :
    ((ofList jobs).jobs.map Job.id).Nodup := by
  suffices h : ∀ table : JobTable, (table.jobs.map Job.id).Nodup →
      ((jobs.foldl insert table).jobs.map Job.id).Nodup by
    exact h empty List.nodup_nil
  induction jobs with
  | nil => exact fun _ hnodup => hnodup
  | cons job rest ih =>
      exact fun table hnodup => ih _ (nodup_ids_insert hnodup job)

theorem map_id_cleared (table : JobTable) :
    table.cleared.jobs.map Job.id = table.jobs.map Job.id := by
  rw [cleared, List.map_map]
  rfl

theorem find?_of_mem {table : JobTable}
    (hnodup : (table.jobs.map Job.id).Nodup) {job : Job}
    (hjob : job ∈ table.jobs) : table.find? job.id = some job := by
  obtain ⟨found, hfound⟩ : ∃ found, table.find? job.id = some found := by
    rw [← Option.isSome_iff_exists, find?, List.find?_isSome]
    exact ⟨job, hjob, by simp⟩
  have hid : found.id = job.id := by simpa using List.find?_some hfound
  rw [hfound, List.inj_on_of_nodup_map hnodup (mem_of_find? hfound) hjob hid]

end JobTable

variable {α σ : Type}

namespace Context

/-- The entry of a task in the running list of a job, if it is the job's. -/
def entryOf? (ctx : Context α) (job : JobId) (id : TaskId) :
    Option (TaskId × Nat) :=
  (ctx.task? id).bind fun task =>
    if task.job = job then some (id, task.localId) else none

/-- The running tasks of a job, in the order of the running list. -/
def runningOf (ctx : Context α) (job : JobId) : List (TaskId × Nat) :=
  ctx.running.filterMap (ctx.entryOf? job)

theorem entryOf?_eq_some {ctx : Context α} {job : JobId} {id : TaskId}
    {entry : TaskId × Nat} :
    ctx.entryOf? job id = some entry ↔ ∃ task, ctx.task? id = some task ∧
      task.job = job ∧ (id, task.localId) = entry := by
  simp [entryOf?, Option.bind_eq_some_iff]

theorem mem_runningOf {ctx : Context α} {job : JobId}
    {entry : TaskId × Nat} (hentry : entry ∈ ctx.runningOf job) :
    entry.1 ∈ ctx.running ∧
      ∃ task, ctx.task? entry.1 = some task ∧ task.job = job := by
  obtain ⟨id, hid, hsome⟩ := List.mem_filterMap.mp hentry
  obtain ⟨task, htask, hown, rfl⟩ := entryOf?_eq_some.mp hsome
  exact ⟨hid, task, htask, hown⟩

theorem entryOf?_finished (ctx : Context α) (job : JobId) (id other : TaskId)
    (node : NodeId) (now : Time α) :
    (ctx.finished id node now).entryOf? job other =
      ctx.entryOf? job other := by
  unfold entryOf?
  rw [finished_task?]
  split
  next => cases ctx.task? other <;> rfl
  next => rfl

/-- The jobs are the ones of the episode, each lists its running tasks, and if
jobs are to be respected then each keeps its rules. -/
structure Orderly (jobs : List Job) (ctx : Context α) : Prop where
  registered : ctx.jobs.cleared = JobTable.ofList jobs
  listed : ∀ job ∈ ctx.jobs.jobs, job.running = ctx.runningOf job.id
  kept : ctx.respectJobs = true → ∀ job ∈ ctx.jobs.jobs, job.Kept

variable {jobs : List Job} {ctx : Context α}

theorem Orderly.roster (horderly : ctx.Orderly jobs) : ctx.Roster := by
  intro job hjob entry hentry
  rw [horderly.listed job hjob] at hentry
  exact mem_runningOf hentry

theorem Orderly.nodup_ids (horderly : ctx.Orderly jobs) :
    (ctx.jobs.jobs.map Job.id).Nodup := by
  rw [← JobTable.map_id_cleared, horderly.registered]
  exact JobTable.nodup_ids_ofList jobs

theorem Orderly.finished (horderly : ctx.Orderly jobs) (id : TaskId)
    (node : NodeId) (now : Time α) :
    (ctx.finished id node now).Orderly jobs := by
  refine ⟨horderly.registered, ?_, horderly.kept⟩
  intro job hjob
  rw [horderly.listed job hjob]
  apply List.filterMap_congr
  intro other _
  exact (ctx.entryOf?_finished job.id id other node now).symm

theorem Orderly.measure (horderly : ctx.Orderly jobs)
    (change : EpisodeMetrics α → EpisodeMetrics α) :
    (ctx.measure change).Orderly jobs :=
  ⟨horderly.registered, horderly.listed, horderly.kept⟩

/-! ## The sweep -/

theorem cleared_foldl_departureOf (ctx : Context α) (ids : List TaskId)
    (table : JobTable) :
    (ids.foldl ctx.departureOf table).cleared = table.cleared := by
  induction ids generalizing table with
  | nil => rfl
  | cons id rest ih =>
      rw [List.foldl_cons, ih]
      unfold departureOf
      split
      next task _ => exact table.cleared_modify task.job fun _ => rfl
      next => rfl

theorem admits_of_respected {id : TaskId} {task : Task α}
    (hrespect : ctx.respectJobs = true) (htask : ctx.task? id = some task)
    (hadmits : ctx.admits id = true) {job : Job}
    (hjob : ctx.jobs.find? task.job = some job) :
    job.admits task.localId = true := by
  unfold admits at hadmits
  rw [hrespect, htask, Bool.not_true, Bool.false_or] at hadmits
  simp only [JobTable.admits, hjob] at hadmits
  exact hadmits

variable [Arith α]

theorem runningOf_releaseFinished (ctx : Context α) (now : Time α)
    (job : JobId) :
    (ctx.releaseFinished now).runningOf job = (ctx.runningOf job).filter
      fun entry => !(ctx.doneBy now).contains entry.1 := by
  have hentry : (ctx.releaseFinished now).entryOf? job =
      ctx.entryOf? job := by
    funext id
    rw [entryOf?, entryOf?, releaseFinished_task?]
  rw [runningOf, runningOf, hentry, releaseFinished_running,
    List.filter_filterMap, List.filterMap_filter]
  apply List.filterMap_congr
  intro id hid
  have hdone : (ctx.doneBy now).contains id = ctx.isFinishedBy now id := by
    rw [Bool.eq_iff_iff]
    simp [doneBy, hid]
  cases hsome : ctx.entryOf? job id with
  | none => simp
  | some entry =>
      obtain ⟨task, _, _, rfl⟩ := entryOf?_eq_some.mp hsome
      rw [Option.filter_some, hdone]

theorem Orderly.sweep (horderly : ctx.Orderly jobs)
    (hnumbered : ∀ id task, ctx.task? id = some task → task.id = id)
    (now : Time α) : (ctx.releaseFinished now).Orderly jobs := by
  have hleft : ∀ job ∈ (ctx.releaseFinished now).jobs.jobs,
      ∃ old ∈ ctx.jobs.jobs, job = (ctx.doneBy now).foldl Job.leave old :=
    fun job hjob => horderly.roster.mem_swept hnumbered hjob
  constructor
  case registered =>
    rw [releaseFinished_eq]
    exact (ctx.cleared_foldl_departureOf _ ctx.jobs).trans
      horderly.registered
  case listed =>
    intro job hjob
    obtain ⟨old, hold, rfl⟩ := hleft job hjob
    rw [Job.foldl_leave, runningOf_releaseFinished, horderly.listed old hold]
  case kept =>
    intro hrespect job hjob
    obtain ⟨old, hold, rfl⟩ := hleft job hjob
    rw [releaseFinished_respectJobs] at hrespect
    exact (horderly.kept hrespect old hold).foldl_leave _

/-! ## Placements -/

theorem runningOf_bound {task : Task α}
    (htask : ctx.task? task.id = some task) (node : Node α) (now : Time α)
    (cost : Span α) (job : JobId) :
    (ctx.bound task node now cost).runningOf job = ctx.runningOf job ++
      if task.job = job then [(task.id, task.localId)] else [] := by
  have hentry : (ctx.bound task node now cost).entryOf? job =
      ctx.entryOf? job := by
    funext id
    rw [entryOf?, entryOf?, bound_task? htask]
    split
    next heq =>
      rw [← heq, htask]
      rfl
    next => rfl
  have hrunning : (ctx.bound task node now cost).running =
      ctx.running ++ [task.id] := rfl
  rw [runningOf, hentry, hrunning, List.filterMap_append, runningOf]
  congr 1
  simp only [List.filterMap_cons, List.filterMap_nil, entryOf?, htask,
    Option.bind_some]
  split <;> simp_all

theorem Orderly.bound (horderly : ctx.Orderly jobs) {task : Task α}
    (htask : ctx.task? task.id = some task)
    (hnew : task.id ∉ ctx.running) (hadmits : ctx.admits task.id = true)
    (node : Node α) (now : Time α) (cost : Span α) :
    (ctx.bound task node now cost).Orderly jobs := by
  have habsent : ∀ job ∈ ctx.jobs.jobs, ∀ entry ∈ job.running,
      entry.1 ≠ task.id := by
    intro job hjob entry hentry heq
    rw [← heq] at hnew
    exact hnew (horderly.roster job hjob entry hentry).1
  constructor
  case registered =>
    refine Eq.trans ?_ horderly.registered
    exact ctx.jobs.cleared_modify task.job fun job =>
      job.cleared_enter task.id task.localId
  case listed =>
    intro job hjob
    obtain ⟨old, hold, rfl⟩ := JobTable.mem_modify hjob
    rw [runningOf_bound htask]
    split
    next hown =>
      rw [Job.enter_of_new task.localId (habsent old hold),
        horderly.listed old hold, if_pos hown.symm]
    next hother =>
      rw [if_neg fun hown => hother hown.symm, List.append_nil]
      exact horderly.listed old hold
  case kept =>
    intro hrespect job hjob
    obtain ⟨old, hold, rfl⟩ := JobTable.mem_modify hjob
    have hkept := horderly.kept hrespect old hold
    split
    next hown =>
      have hfound := JobTable.find?_of_mem horderly.nodup_ids hold
      rw [hown] at hfound
      have hrespected : ctx.respectJobs = true := hrespect
      exact hkept.enter (admits_of_respected hrespected htask hadmits hfound)
        (habsent old hold)
    next => exact hkept

end Context

/-! ## Episodes -/

variable [Arith α] {jobs : List Job}

theorem Simulation.Books.orderly_consult {sim : Simulation α}
    {policy : Policy (StateM σ) α} {decision : Option (Decision α)}
    {strategy : Strategy α} {ctx : Context α} {before after : σ}
    (hbooks : sim.Books) (horderly : sim.context.Orderly jobs)
    (hconsults : sim.gateway.strategy.Consults policy sim.gateway.pending
      sim.context sim.queue.now before decision strategy ctx after) :
    ctx.Orderly jobs := by
  have hnumbered := hbooks.ledger.numbered
  have hswept := horderly.sweep hnumbered sim.queue.now
  have hsampled : ∀ answer,
      (sim.context.sampled sim.queue.now answer).Orderly jobs :=
    fun answer => hswept.measure _
  cases hconsults with
  | silent hoffers => exact hswept
  | full hasked hfull => exact hsampled _
  | crowded hasked hnames hbusy hnone => exact hsampled _
  | rejected hasked hnames hbusy hidle => exact hsampled _
  | dropped hasked hnames hidle hmissed hfeedback =>
      exact ((hsampled _).measure _).measure _
  | @assigned answer _ _ id place task node hasked hnames hidle hmeets
      hfeedback =>
      have htask := hnames.task_eq
      have htask' : sim.context.task? id = some task := by simpa using htask
      obtain rfl := hnumbered id task htask'
      obtain ⟨_, _, _, hcount, _⟩ :=
        hbooks.ledger.pending_alone htask' hnames.mem_pending
      have hadmits :=
        (Strategy.mem_offers (Strategy.resolve?_mem hnames.resolved).1).2
      have hnew : task.id ∉ (sim.context.sampled sim.queue.now
          answer).running := by
        intro hmem
        have hrunning : task.id ∈ sim.context.running := by
          apply List.mem_of_mem_filter
          rw [← Context.releaseFinished_running]
          exact hmem
        exact List.count_eq_zero.mp hcount hrunning
      have hbound := (hsampled answer).bound htask hnew hadmits node
        sim.queue.now answer.cost
      exact hbound.measure _

namespace Moment

variable {policy : Policy (StateM σ) α} {ending : EndCondition α}

theorem Step.orderly {before after : Moment σ α} {turn : Turn α}
    (hstep : before.Step policy ending turn after)
    (hbooks : before.sim.Books) (horderly : before.sim.context.Orderly jobs) :
    after.sim.context.Orderly jobs := by
  apply hstep.preserves_of_books (fun sim => sim.context.Orderly jobs) _ _
    hbooks
  · intro event popped hnext
    rcases Simulation.heard_context hnext with hsame | ⟨id, node, _, hfinished⟩
    · rw [hsame]
      exact horderly
    · rw [hfinished]
      exact horderly.finished id node popped.queue.now
  · intro sim decision strategy ctx service hsim hheard hconsults
    rw [Simulation.settled_context]
    exact hsim.orderly_consult hheard hconsults

theorem start_orderly {gateway : Gateway α} {ctx : Context α} {episode : Nat}
    {dataset : Dataset α} {service : σ} (hdataset : dataset.Fresh) :
    (start gateway ctx episode dataset service).sim.context.Orderly
      dataset.jobs := by
  have hidle : ∀ job ∈ (JobTable.ofList dataset.jobs).jobs,
      job.running = [] :=
    fun job hjob => hdataset.unentered job (JobTable.mem_ofList hjob)
  constructor
  case registered =>
    change (JobTable.ofList dataset.jobs).cleared = _
    have hsame : (JobTable.ofList dataset.jobs).jobs.map Job.cleared =
        (JobTable.ofList dataset.jobs).jobs.map id := by
      apply List.map_congr_left
      intro job hjob
      rw [Job.cleared, ← hidle job hjob, id]
    rw [JobTable.cleared, hsame, List.map_id]
  case listed => exact hidle
  case kept => exact fun _ job hjob => Job.kept_of_idle (hidle job hjob)

/-- Between any two events of an episode the running list of each job is the
one of the episode restricted to the tasks of the job, and if jobs are to be
respected then each job keeps its bound and runs the tasks of a common group. -/
theorem jobs_kept {gateway : Gateway α} {ctx : Context α} {episode : Nat}
    {dataset : Dataset α} {service : σ} {turns : List (Turn α)}
    {now : Moment σ α} (hdataset : dataset.Fresh)
    (htopology : ctx.topology.Built)
    (hrun : Run policy ending (start gateway ctx episode dataset service)
      turns now) :
    now.sim.context.jobs.cleared = JobTable.ofList dataset.jobs ∧
      ∀ job ∈ now.sim.context.jobs.jobs,
        job.running = now.sim.context.runningOf job.id ∧
          (ctx.respectJobs = true → job.Kept) := by
  have hbooks : (start gateway ctx episode dataset service).sim.Books :=
    start_books hdataset htopology
  have horderly : now.sim.context.Orderly dataset.jobs := by
    apply hrun.invariant_of_books _ hbooks (start_orderly hdataset)
    intro before turn after hbooks horderly hstep
    exact hstep.orderly hbooks horderly
  have hrespect : now.sim.context.respectJobs = ctx.respectJobs :=
    congrArg Rules.respectJobs (hrun.rules hbooks)
  refine ⟨horderly.registered, ?_⟩
  intro job hjob
  refine ⟨horderly.listed job hjob, ?_⟩
  rw [← hrespect]
  exact fun hrespected => horderly.kept hrespected job hjob

end Moment

/-! ## Two tasks that run together

Two cloud nodes are there for three tasks of a job that may run two at a time.  Its
groups share the last task, which joins the first one and overtakes the second. -/

namespace Sample

def pairPlan : TopologyPlan Binary64 := { plan with cloudNodes := 2 }

def pairTopology : Topology Binary64 := Topology.ofPlanUnchecked pairPlan

def pairContext : Context Binary64 := { context with topology := pairTopology }

def overlapping : Dataset Binary64 :=
  ⟨"overlapping", [Job.fresh ⟨0⟩ 2 [[0, 2], [1, 2]]],
    [task 0 1, task 1 2, task 2 3]⟩

/-- The first decision names the first candidate, and every other one the second. -/
def spreading : Policy (StateM Unit) Binary64 where
  ask
    | .askDecision 0 _ => pure (.ok "1,0d0")
    | _ => pure (.ok "1,0d1")

theorem pairTopology_built : pairContext.topology.Built := by
  have hplan : Topology.ofPlan pairPlan = .ok pairTopology := by rfl
  exact Topology.built_of_ofPlan hplan

theorem overlapping_fresh : overlapping.Fresh := by decide

end Sample

/-- While the first and the third task run, the job is at its bound, and the second
task still waits. -/
theorem Moment.sample_jobs_kept :
    ∃ turns now, Run Sample.spreading .drained
      (start Sample.gateway Sample.pairContext 0 Sample.overlapping ()) turns
        now ∧
      now.sim.context.running = [⟨0⟩, ⟨2⟩] ∧
      now.sim.gateway.pending = [⟨1⟩] ∧
      now.sim.context.jobs.cleared =
        JobTable.ofList Sample.overlapping.jobs ∧
      ∀ job ∈ now.sim.context.jobs.jobs,
        job.running = now.sim.context.runningOf job.id ∧ job.Kept := by
  have hreached : ((start Sample.gateway Sample.pairContext 0
      Sample.overlapping ()).after? Sample.spreading .drained 5).map
        (fun now => (now.sim.context.running, now.sim.gateway.pending)) =
      some ([⟨0⟩, ⟨2⟩], [⟨1⟩]) := by
    decide +kernel
  obtain ⟨now, hafter, hstate⟩ := Option.map_eq_some_iff.mp hreached
  obtain ⟨hrunning, hpending⟩ := Prod.mk.inj hstate
  obtain ⟨turns, _, hrun⟩ := run_of_after? hafter
  obtain ⟨hregistered, hjobs⟩ :=
    jobs_kept Sample.overlapping_fresh Sample.pairTopology_built hrun
  refine ⟨turns, now, hrun, hrunning, hpending, hregistered, ?_⟩
  intro job hjob
  obtain ⟨hlisted, hkept⟩ := hjobs job hjob
  exact ⟨hlisted, hkept rfl⟩

end FogDispatch
