import FogDispatch.Proofs.Books

/-!
# Jobs and running tasks

Jobs list no other tasks than the running ones, and each of them only its own.
A task that its job does not admit, although the job may run tasks at all, is
therefore kept waiting by a running task.  The rules of an episode, which jobs
there are and how many tasks each of them may run, never change.
-/

namespace FogDispatch

namespace Job

@[simp] theorem enter_id (job : Job) (id : TaskId) (localId : Nat) :
    (job.enter id localId).id = job.id := by
  unfold enter
  split <;> rfl

@[simp] theorem enter_maxParallel (job : Job) (id : TaskId) (localId : Nat) :
    (job.enter id localId).maxParallel = job.maxParallel := by
  unfold enter
  split <;> rfl

theorem mem_running_enter {job : Job} {id : TaskId} {localId : Nat}
    {entry : TaskId × Nat} (hentry : entry ∈ (job.enter id localId).running) :
    entry ∈ job.running ∨ entry = (id, localId) := by
  unfold enter at hentry
  split at hentry
  next => exact Or.inl hentry
  next => simpa using hentry

theorem foldl_leave (ids : List TaskId) (job : Job) :
    ids.foldl leave job =
      { job with
        running := job.running.filter fun entry => !ids.contains entry.1 } := by
  induction ids generalizing job with
  | nil => simp
  | cons id rest ih =>
      rw [List.foldl_cons, ih, leave]
      simp only [List.filter_filter, List.contains_cons, Bool.not_or,
        Bool.and_comm]
      rfl

/-- A job that does not list a task does not notice that it leaves. -/
theorem leave_of_absent {job : Job} {id : TaskId}
    (habsent : ∀ entry ∈ job.running, entry.1 ≠ id) : job.leave id = job := by
  have hall : job.running.filter (·.1 != id) = job.running := by
    rw [List.filter_eq_self]
    simpa using fun _ _ hentry => habsent _ hentry
  rw [leave, hall]

/-- A job that may run tasks refuses one only because of a running one. -/
theorem running_of_refused {job : Job} {localId : Nat}
    (hlimit : job.maxParallel ≠ 0) (hrefused : job.admits localId = false) :
    ∃ entry, entry ∈ job.running := by
  by_contra hnone
  have hempty : job.running = [] := by
    rw [List.eq_nil_iff_forall_not_mem]
    exact fun entry hentry => hnone ⟨entry, hentry⟩
  have hroom : 0 < job.maxParallel := Nat.pos_of_ne_zero hlimit
  unfold admits at hrefused
  rw [hempty] at hrefused
  split at hrefused <;> simp [hroom] at hrefused

end Job

namespace JobTable

theorem mem_modify {table : JobTable} {id : JobId} {change : Job → Job}
    {job : Job} (hjob : job ∈ (table.modify id change).jobs) :
    ∃ old ∈ table.jobs, job = if old.id = id then change old else old := by
  obtain ⟨old, hold, rfl⟩ := List.mem_map.mp hjob
  exact ⟨old, hold, rfl⟩

theorem find?_modify (table : JobTable) (id other : JobId)
    {change : Job → Job} (hchange : ∀ job, (change job).id = job.id) :
    (table.modify id change).find? other = (table.find? other).map fun job =>
      if job.id = id then change job else job := by
  have hsame : ∀ job : Job,
      (if job.id = id then change job else job).id = job.id := by
    intro job
    split
    · exact hchange job
    · rfl
  simp only [find?, modify, List.find?_map, Function.comp_def, hsame]

theorem limit_modify (table : JobTable) (id other : JobId)
    {change : Job → Job} (hchange : ∀ job, (change job).id = job.id)
    (hlimit : ∀ job, (change job).maxParallel = job.maxParallel) :
    ((table.modify id change).find? other).map Job.maxParallel =
      (table.find? other).map Job.maxParallel := by
  rw [find?_modify table id other hchange, Option.map_map]
  apply Option.map_congr
  intro job _
  simp only [Function.comp_apply]
  split
  · exact hlimit job
  · rfl

theorem mem_insert {table : JobTable} {job other : Job}
    (hother : other ∈ (table.insert job).jobs) :
    other ∈ table.jobs ∨ other = job := by
  rcases List.mem_append.mp hother with hold | hnew
  · exact Or.inl (List.mem_of_mem_filter hold)
  · exact Or.inr (List.mem_singleton.mp hnew)

theorem mem_foldl_insert {jobs : List Job} {table : JobTable} {job : Job}
    (hjob : job ∈ (jobs.foldl insert table).jobs) :
    job ∈ table.jobs ∨ job ∈ jobs := by
  induction jobs generalizing table with
  | nil => exact Or.inl hjob
  | cons head rest ih =>
      rcases ih hjob with hinserted | hrest
      · rcases mem_insert hinserted with hold | rfl
        · exact Or.inl hold
        · exact Or.inr List.mem_cons_self
      · exact Or.inr (List.mem_cons_of_mem head hrest)

theorem mem_ofList {jobs : List Job} {job : Job}
    (hjob : job ∈ (ofList jobs).jobs) : job ∈ jobs := by
  rcases mem_foldl_insert hjob with hnone | hmem
  · cases hnone
  · exact hmem

theorem mem_of_find? {table : JobTable} {id : JobId} {job : Job}
    (hjob : table.find? id = some job) : job ∈ table.jobs :=
  List.mem_of_find?_eq_some hjob

end JobTable

variable {α σ : Type}

namespace Context

/-! ## Who runs for which job -/

/-- The jobs list running tasks, and only tasks of their own. -/
def Roster (ctx : Context α) : Prop :=
  ∀ job ∈ ctx.jobs.jobs, ∀ entry ∈ job.running, entry.1 ∈ ctx.running ∧
    ∃ task, ctx.task? entry.1 = some task ∧ task.job = job.id

/-- Each job of a table lists only tasks of its own. -/
def Owned (ctx : Context α) (table : JobTable) : Prop :=
  ∀ job ∈ table.jobs, ∀ entry ∈ job.running,
    ∃ task, ctx.task? entry.1 = some task ∧ task.job = job.id

variable {ctx : Context α}

theorem Roster.owned (hroster : ctx.Roster) : ctx.Owned ctx.jobs :=
  fun job hjob entry hentry => (hroster job hjob entry hentry).2

theorem departure_of_owned {table : JobTable} {id : TaskId} {job : Job}
    (hnumbered : ∀ id task, ctx.task? id = some task → task.id = id)
    (howned : ctx.Owned table)
    (hjob : job ∈ (ctx.departureOf table id).jobs) :
    ∃ old ∈ table.jobs, job = old.leave id := by
  unfold departureOf at hjob
  split at hjob
  next task htask =>
    obtain ⟨old, hold, rfl⟩ := JobTable.mem_modify hjob
    refine ⟨old, hold, ?_⟩
    rw [hnumbered id task htask]
    split
    next => rfl
    next hother =>
      refine (Job.leave_of_absent ?_).symm
      rintro entry hentry rfl
      obtain ⟨own, hown, hsame⟩ := howned old hold entry hentry
      rw [htask, Option.some.injEq] at hown
      subst hown
      exact hother hsame.symm
  next hnone =>
    refine ⟨job, hjob, (Job.leave_of_absent ?_).symm⟩
    rintro entry hentry rfl
    obtain ⟨task, htask, _⟩ := howned job hjob entry hentry
    rw [hnone] at htask
    cases htask

/-- Released tasks leave every job, since only their own one lists them. -/
theorem departures_of_owned {ids : List TaskId} {table : JobTable} {job : Job}
    (hnumbered : ∀ id task, ctx.task? id = some task → task.id = id)
    (howned : ctx.Owned table)
    (hjob : job ∈ (ids.foldl ctx.departureOf table).jobs) :
    ∃ old ∈ table.jobs, job = ids.foldl Job.leave old := by
  induction ids generalizing table with
  | nil => exact ⟨job, hjob, rfl⟩
  | cons id rest ih =>
      have hmiddle : ctx.Owned (ctx.departureOf table id) := by
        intro job hjob entry hentry
        obtain ⟨old, hold, rfl⟩ := departure_of_owned hnumbered howned hjob
        exact howned old hold entry (List.mem_of_mem_filter hentry)
      obtain ⟨middle, hmem, rfl⟩ := ih hmiddle hjob
      obtain ⟨old, hold, rfl⟩ := departure_of_owned hnumbered howned hmem
      exact ⟨old, hold, rfl⟩

theorem Roster.finished (hroster : ctx.Roster)
    (id : TaskId) (node : NodeId) (now : Time α) :
    (ctx.finished id node now).Roster := by
  intro job hjob entry hentry
  obtain ⟨hrunning, task, htask, hown⟩ := hroster job hjob entry hentry
  refine ⟨hrunning, ?_⟩
  rw [finished_task?, htask]
  split
  next => exact ⟨_, rfl, hown⟩
  next => exact ⟨task, rfl, hown⟩

section

variable [Arith α]

theorem Roster.mem_swept (hroster : ctx.Roster)
    (hnumbered : ∀ id task, ctx.task? id = some task → task.id = id)
    {now : Time α} {job : Job}
    (hjob : job ∈ (ctx.releaseFinished now).jobs.jobs) :
    ∃ old ∈ ctx.jobs.jobs, job = (ctx.doneBy now).foldl Job.leave old := by
  rw [releaseFinished_eq] at hjob
  exact departures_of_owned hnumbered hroster.owned hjob

theorem Roster.sweep (hroster : ctx.Roster)
    (hnumbered : ∀ id task, ctx.task? id = some task → task.id = id)
    (now : Time α) : (ctx.releaseFinished now).Roster := by
  intro job hjob entry hentry
  obtain ⟨old, hold, rfl⟩ := hroster.mem_swept hnumbered hjob
  rw [Job.foldl_leave, List.mem_filter] at hentry
  obtain ⟨hmem, hleft⟩ := hentry
  obtain ⟨hrunning, task, htask, hown⟩ := hroster old hold entry hmem
  refine ⟨?_, task, by simpa using htask, by rw [hown, Job.foldl_leave]⟩
  rw [releaseFinished_running, List.mem_filter]
  refine ⟨hrunning, ?_⟩
  -- a finished task would have left its job
  by_contra hdone
  have hfinished : entry.1 ∈ ctx.doneBy now :=
    List.mem_filter.mpr ⟨hrunning, by simpa using hdone⟩
  simp [hfinished] at hleft

theorem Roster.bound (hroster : ctx.Roster)
    {task : Task α} (htask : ctx.task? task.id = some task) (node : Node α)
    (now : Time α) (cost : Span α) :
    (ctx.bound task node now cost).Roster := by
  intro job hjob entry hentry
  have hold : (entry.1 ∈ ctx.running ∧
      ∃ other, ctx.task? entry.1 = some other ∧ other.job = job.id) ∨
        (entry.1 = task.id ∧ task.job = job.id) := by
    obtain ⟨old, hold, rfl⟩ := JobTable.mem_modify hjob
    split at hentry
    next heq =>
      rw [if_pos heq, Job.enter_id]
      rcases Job.mem_running_enter hentry with hmem | rfl
      · exact Or.inl (hroster old hold entry hmem)
      · exact Or.inr ⟨rfl, heq.symm⟩
    next hne =>
      rw [if_neg hne]
      exact Or.inl (hroster old hold entry hentry)
  rw [bound_task? htask]
  rcases hold with ⟨hrunning, other, hother, hown⟩ | ⟨hentry, hown⟩
  · refine ⟨List.mem_append_left _ hrunning, ?_⟩
    split
    next heq =>
      rw [← heq, htask, Option.some.injEq] at hother
      subst hother
      exact ⟨_, rfl, hown⟩
    next => exact ⟨other, hother, hown⟩
  · rw [hentry, if_pos rfl]
    exact ⟨List.mem_append_right _ (List.mem_singleton.mpr rfl), _, rfl, hown⟩

end

/-! ## The rules of an episode -/

end Context

/-- What the admission of tasks goes by and no event changes. -/
structure Rules where
  respectJobs : Bool
  maxParallel? : JobId → Option Nat
  job? : TaskId → Option JobId

/-- A task that is never admitted, because its job may run no task at all. -/
def Rules.Bars (rules : Rules) (id : TaskId) : Prop :=
  rules.respectJobs = true ∧
    ∃ job, rules.job? id = some job ∧ rules.maxParallel? job = some 0

namespace Context

def rules (ctx : Context α) : Rules where
  respectJobs := ctx.respectJobs
  maxParallel? id := (ctx.jobs.find? id).map Job.maxParallel
  job? id := (ctx.task? id).map Task.job

theorem rules_of_same {ctx other : Context α}
    (hrespect : other.respectJobs = ctx.respectJobs)
    (hlimit : ∀ id, (other.jobs.find? id).map Job.maxParallel =
      (ctx.jobs.find? id).map Job.maxParallel)
    (hjob : ∀ id, (other.task? id).map Task.job =
      (ctx.task? id).map Task.job) : other.rules = ctx.rules := by
  rw [rules, rules, Rules.mk.injEq]
  exact ⟨hrespect, funext hlimit, funext hjob⟩

/-- A task that is refused although its job may run tasks waits for a running
one. -/
theorem running_of_refused {ctx : Context α} (hroster : ctx.Roster)
    {id : TaskId} {task : Task α} (htask : ctx.task? id = some task)
    (hbars : ¬ ctx.rules.Bars id) (hrefused : ctx.admits id = false) :
    ∃ other, other ∈ ctx.running := by
  unfold admits at hrefused
  rw [htask, Bool.or_eq_false_iff, Bool.not_eq_false'] at hrefused
  obtain ⟨hrespect, hrefused⟩ := hrefused
  simp only [JobTable.admits] at hrefused
  cases hjob : ctx.jobs.find? task.job with
  | none =>
      rw [hjob] at hrefused
      cases hrefused
  | some job =>
      rw [hjob] at hrefused
      have hlimit : job.maxParallel ≠ 0 := by
        intro hzero
        apply hbars
        refine ⟨hrespect, task.job, ?_, ?_⟩
        · simp [rules, htask]
        · simp [rules, hjob, hzero]
      obtain ⟨entry, hentry⟩ := Job.running_of_refused hlimit hrefused
      have hmem := JobTable.mem_of_find? hjob
      exact ⟨entry.1, (hroster job hmem entry hentry).1⟩

theorem limit_foldl_departureOf (ctx : Context α) (ids : List TaskId)
    (jobs : JobTable) (id : JobId) :
    ((ids.foldl ctx.departureOf jobs).find? id).map Job.maxParallel =
      (jobs.find? id).map Job.maxParallel := by
  induction ids generalizing jobs with
  | nil => rfl
  | cons released rest ih =>
      rw [List.foldl_cons, ih]
      unfold departureOf
      split
      next task _ =>
        exact jobs.limit_modify task.job id (fun _ => rfl) (fun _ => rfl)
      next => rfl

theorem finished_rules (ctx : Context α) (id : TaskId) (node : NodeId)
    (now : Time α) : (ctx.finished id node now).rules = ctx.rules := by
  apply rules_of_same
  · rfl
  · exact fun _ => rfl
  · intro other
    rw [finished_task?]
    split
    next =>
      rw [Option.map_map]
      rfl
    next => rfl

variable [Arith α]

theorem releaseFinished_rules (ctx : Context α) (now : Time α) :
    (ctx.releaseFinished now).rules = ctx.rules := by
  apply rules_of_same
  · exact ctx.releaseFinished_respectJobs now
  · intro id
    rw [releaseFinished_eq]
    exact ctx.limit_foldl_departureOf _ _ id
  · intro id
    rw [releaseFinished_task?]

theorem bound_rules {ctx : Context α} {task : Task α}
    (htask : ctx.task? task.id = some task) (node : Node α) (now : Time α)
    (cost : Span α) : (ctx.bound task node now cost).rules = ctx.rules := by
  apply rules_of_same
  · rfl
  · intro id
    exact ctx.jobs.limit_modify task.job id
      (fun job => job.enter_id task.id task.localId)
      (fun job => job.enter_maxParallel task.id task.localId)
  · intro id
    rw [bound_task? htask]
    split
    next heq =>
      rw [← heq, htask]
      rfl
    next => rfl

end Context

/-! ## Episodes -/

section

variable [Arith α] {policy : Policy (StateM σ) α}
  {strategy next : Strategy α} {pending : List TaskId}
  {ctx after : Context α} {now : Time α} {before left : σ}
  {decision : Option (Decision α)}

theorem Strategy.Consults.roster
    (hconsults : strategy.Consults policy pending ctx now before decision next
      after left)
    (hnumbered : ∀ id task, ctx.task? id = some task → task.id = id)
    (hroster : ctx.Roster) : after.Roster := by
  have hswept := hroster.sweep hnumbered now
  cases hconsults with
  | silent hoffers => exact hswept
  | full hasked hfull => exact hswept
  | crowded hasked hnames hbusy hnone => exact hswept
  | rejected hasked hnames hbusy hidle => exact hswept
  | dropped hasked hnames hidle hmissed hfeedback => exact hswept
  | @assigned answer _ _ id place task node hasked hnames hidle hmeets
      hfeedback =>
      have htask := hnames.task_eq
      obtain rfl := hnumbered id task (by simpa using htask)
      have hsampled : (ctx.sampled now answer).Roster := hswept
      exact hsampled.bound htask node now answer.cost

theorem Strategy.Consults.rules
    (hconsults : strategy.Consults policy pending ctx now before decision next
      after left)
    (hnumbered : ∀ id task, ctx.task? id = some task → task.id = id) :
    after.rules = ctx.rules := by
  have hswept := ctx.releaseFinished_rules now
  cases hconsults with
  | silent hoffers => exact hswept
  | full hasked hfull => exact hswept
  | crowded hasked hnames hbusy hnone => exact hswept
  | rejected hasked hnames hbusy hidle => exact hswept
  | dropped hasked hnames hidle hmissed hfeedback => exact hswept
  | @assigned answer _ _ id place task node hasked hnames hidle hmeets
      hfeedback =>
      have htask := hnames.task_eq
      obtain rfl := hnumbered id task (by simpa using htask)
      exact (Context.bound_rules htask node now answer.cost).trans hswept

end

variable [Arith α]

namespace Simulation

variable {sim popped : Simulation α} {ending : EndCondition α}
  {event : Event α}

theorem heard_roster (hroster : sim.context.Roster)
    (hnext : sim.next? ending = some (event, popped)) :
    (popped.heard event.target event.message).context.Roster := by
  rcases heard_context hnext with hsame | ⟨id, node, _, hfinished⟩
  · rw [hsame]
    exact hroster
  · rw [hfinished]
    exact hroster.finished id node popped.queue.now

theorem heard_rules (hnext : sim.next? ending = some (event, popped)) :
    (popped.heard event.target event.message).context.rules =
      sim.context.rules := by
  rcases heard_context hnext with hsame | ⟨id, node, _, hfinished⟩
  · rw [hsame]
  · rw [hfinished, Context.finished_rules]

end Simulation

namespace Moment

variable {policy : Policy (StateM σ) α} {ending : EndCondition α}

theorem Step.roster {before after : Moment σ α} {turn : Turn α}
    (hstep : before.Step policy ending turn after)
    (hbooks : before.sim.Books) (hroster : before.sim.context.Roster) :
    after.sim.context.Roster := by
  apply hstep.preserves_of_books (fun sim => sim.context.Roster) _ _ hbooks
  · intro event popped hnext
    exact Simulation.heard_roster hroster hnext
  · intro sim decision strategy ctx service hsim hheard hconsults
    rw [Simulation.settled_context]
    exact hconsults.roster hsim.ledger.numbered hheard

theorem Step.rules {before after : Moment σ α} {turn : Turn α}
    (hstep : before.Step policy ending turn after)
    (hbooks : before.sim.Books) :
    after.sim.context.rules = before.sim.context.rules := by
  apply hstep.preserves_of_books
    (fun sim => sim.context.rules = before.sim.context.rules) _ _ hbooks
  · intro event popped hnext
    exact Simulation.heard_rules hnext
  · intro sim decision strategy ctx service hsim hheard hconsults
    rw [Simulation.settled_context, hconsults.rules hsim.ledger.numbered,
      hheard]

theorem Run.rules {first last : Moment σ α} {turns : List (Turn α)}
    (hrun : Run policy ending first turns last) (hbooks : first.sim.Books) :
    last.sim.context.rules = first.sim.context.rules := by
  induction hrun with
  | done now => rfl
  | turn hstep _ ih =>
      exact (ih (hstep.books hbooks)).trans (hstep.rules hbooks)

theorem start_roster {gateway : Gateway α} {ctx : Context α} {episode : Nat}
    {dataset : Dataset α} {service : σ} (hdataset : dataset.Fresh) :
    (start gateway ctx episode dataset service).sim.context.Roster := by
  intro job hjob entry hentry
  rw [hdataset.unentered job (JobTable.mem_ofList hjob)] at hentry
  cases hentry

end Moment
end FogDispatch
