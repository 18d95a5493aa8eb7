import FogDispatch.Proofs.Admission

/-!
# Peers

Peers are tasks of one job with the same first group or without any.  The rules
of the jobs cannot tell them apart: whatever runs, they are admitted alike.  Who
is a peer of whom goes by the register of the episode, the tasks and the jobs it
started with, and no event changes it.
-/

namespace FogDispatch

theorem JobTable.find?_cleared (table : JobTable) (id : JobId) :
    table.cleared.find? id = (table.find? id).map Job.cleared := by
  rw [find?, cleared, List.find?_map]
  rfl

variable {α σ : Type}

/-- What marks a task from the start. -/
structure Badge where
  id : TaskId
  job : JobId
  localId : Nat

def Task.badge (task : Task α) : Badge := ⟨task.id, task.job, task.localId⟩

/-- The tasks and the jobs of an episode, without what becomes of them. -/
structure Register where
  respectJobs : Bool
  jobs : JobTable
  badge? : TaskId → Option Badge

/-- The tasks of a register stand at the places of their ids. -/
def Register.Numbered (register : Register) : Prop :=
  ∀ id badge, register.badge? id = some badge → badge.id = id

namespace Context

def register (ctx : Context α) : Register where
  respectJobs := ctx.respectJobs
  jobs := ctx.jobs.cleared
  badge? id := (ctx.task? id).map Task.badge

/-- The job of a task and the first of its groups that holds the task. -/
def standing? (ctx : Context α) (id : TaskId) :
    Option (JobId × Option (List Nat)) :=
  (ctx.task? id).map fun task =>
    (task.job, (ctx.jobs.find? task.job).bind (·.groupOf? task.localId))

/-- Two tasks of one job that stand in the same first group, or both in none.
Without rules any two tasks are peers. -/
def Peers (ctx : Context α) (a b : TaskId) : Prop :=
  ctx.respectJobs = true → ctx.standing? a = ctx.standing? b

instance (ctx : Context α) (a b : TaskId) : Decidable (ctx.Peers a b) :=
  inferInstanceAs
    (Decidable (ctx.respectJobs = true → ctx.standing? a = ctx.standing? b))

theorem register_of_same {ctx other : Context α}
    (hrespect : other.respectJobs = ctx.respectJobs)
    (hjobs : other.jobs.cleared = ctx.jobs.cleared)
    (hbadge : ∀ id, (other.task? id).map Task.badge =
      (ctx.task? id).map Task.badge) : other.register = ctx.register := by
  rw [register, register, Register.mk.injEq]
  exact ⟨hrespect, hjobs, funext hbadge⟩

theorem numbered_of_register {ctx : Context α}
    (hnumbered : ctx.register.Numbered) {id : TaskId} {task : Task α}
    (htask : ctx.task? id = some task) : task.id = id := by
  apply hnumbered id task.badge
  simp only [register, htask, Option.map_some]

theorem standing?_eq (ctx : Context α) (id : TaskId) :
    ctx.standing? id = (ctx.register.badge? id).map fun badge =>
      (badge.job,
        (ctx.register.jobs.find? badge.job).bind
          (·.groupOf? badge.localId)) := by
  rw [standing?, register, Option.map_map]
  apply Option.map_congr
  intro task _
  simp only [Function.comp_apply, Task.badge, JobTable.find?_cleared,
    Option.bind_map]
  rfl

theorem Peers.of_register {ctx other : Context α}
    (hregister : other.register = ctx.register) {a b : TaskId}
    (hpeers : ctx.Peers a b) : other.Peers a b := by
  have hrespect : other.respectJobs = ctx.respectJobs :=
    congrArg Register.respectJobs hregister
  rw [Peers, hrespect, standing?_eq, standing?_eq, hregister,
    ← standing?_eq, ← standing?_eq]
  exact hpeers

theorem Peers.of_pair {ctx : Context α} {a b : TaskId}
    (hpeers : ctx.Peers a b) {one other : TaskId} (hone : one ∈ [a, b])
    (hother : other ∈ [a, b]) : ctx.Peers one other := by
  intro hrespect
  have hsame := hpeers hrespect
  simp only [List.mem_cons, List.not_mem_nil, or_false] at hone hother
  rcases hone with rfl | rfl <;> rcases hother with rfl | rfl
  · rfl
  · exact hsame
  · exact hsame.symm
  · rfl

/-- The rules cannot tell peers apart. -/
theorem Peers.admits_eq {ctx : Context α} {a b : TaskId}
    (hpeers : ctx.Peers a b) : ctx.admits a = ctx.admits b := by
  unfold Peers at hpeers
  unfold admits
  cases hrespect : ctx.respectJobs with
  | false => rfl
  | true =>
      have hsame := hpeers hrespect
      unfold standing? at hsame
      cases hfirst : ctx.task? a with
      | none =>
          rw [hfirst, Option.map_none, eq_comm, Option.map_eq_none_iff] at hsame
          rw [hsame]
      | some first =>
          rw [hfirst, Option.map_some, eq_comm,
            Option.map_eq_some_iff] at hsame
          obtain ⟨second, hsecond, heq⟩ := hsame
          obtain ⟨hjob, hgroup⟩ := Prod.mk.inj heq
          rw [hsecond]
          simp only [JobTable.admits, hjob]
          rw [hjob] at hgroup
          cases hfound : ctx.jobs.find? first.job with
          | none => rfl
          | some job =>
              rw [hfound, Option.bind_some, Option.bind_some] at hgroup
              simp only [Job.admits, hgroup]

theorem finished_register (ctx : Context α) (id : TaskId) (node : NodeId)
    (now : Time α) : (ctx.finished id node now).register = ctx.register := by
  apply register_of_same
  · rfl
  · rfl
  · intro other
    rw [finished_task?]
    split
    next =>
      rw [Option.map_map]
      rfl
    next => rfl

variable [Arith α]

theorem releaseFinished_register (ctx : Context α) (now : Time α) :
    (ctx.releaseFinished now).register = ctx.register := by
  apply register_of_same
  · exact ctx.releaseFinished_respectJobs now
  · rw [releaseFinished_eq]
    exact ctx.cleared_foldl_departureOf _ ctx.jobs
  · intro id
    rw [releaseFinished_task?]

theorem bound_register (ctx : Context α) (task : Task α) (node : Node α)
    (now : Time α) (cost : Span α) :
    (ctx.bound task node now cost).register = ctx.register := by
  apply register_of_same
  · rfl
  · exact ctx.jobs.cleared_modify task.job fun job =>
      job.cleared_enter task.id task.localId
  · intro id
    rw [bound, task?_modifyTask]
    split
    next =>
      rw [Option.map_map]
      rfl
    next => rfl

end Context

/-! ## Episodes -/

variable [Arith α]

theorem Strategy.Consults.register {policy : Policy (StateM σ) α}
    {strategy next : Strategy α} {pending : List TaskId}
    {ctx after : Context α} {now : Time α} {before left : σ}
    {decision : Option (Decision α)}
    (hconsults : strategy.Consults policy pending ctx now before decision next
      after left) : after.register = ctx.register := by
  have hswept := ctx.releaseFinished_register now
  cases hconsults with
  | silent hoffers => exact hswept
  | full hasked hfull => exact hswept
  | crowded hasked hnames hbusy hnone => exact hswept
  | rejected hasked hnames hbusy hidle => exact hswept
  | dropped hasked hnames hidle hmissed hfeedback => exact hswept
  | @assigned answer _ _ id place task node hasked hnames hidle hmeets
      hfeedback =>
      exact ((ctx.sampled now answer).bound_register task node now
        answer.cost).trans hswept

theorem Simulation.heard_register {sim popped : Simulation α}
    {ending : EndCondition α} {event : Event α}
    (hnext : sim.next? ending = some (event, popped)) :
    (popped.heard event.target event.message).context.register =
      sim.context.register := by
  rcases heard_context hnext with hsame | ⟨id, node, _, hfinished⟩
  · rw [hsame]
  · rw [hfinished, Context.finished_register]

namespace Moment

variable {policy : Policy (StateM σ) α} {ending : EndCondition α}

theorem Step.register {before after : Moment σ α} {turn : Turn α}
    (hstep : before.Step policy ending turn after) :
    after.sim.context.register = before.sim.context.register := by
  apply hstep.preserves fun sim =>
    sim.context.register = before.sim.context.register
  · intro event popped hnext
    exact Simulation.heard_register hnext
  · intro sim decision strategy ctx service hheard _ hconsults
    rw [Simulation.settled_context, hconsults.register, hheard]

theorem Run.register {first last : Moment σ α} {turns : List (Turn α)}
    (hrun : Run policy ending first turns last) :
    last.sim.context.register = first.sim.context.register := by
  induction hrun with
  | done now => rfl
  | turn hstep _ ih => exact ih.trans hstep.register

theorem start_numbered {gateway : Gateway α} {ctx : Context α}
    {episode : Nat} {dataset : Dataset α} {service : σ}
    (hdataset : dataset.Fresh) :
    (start gateway ctx episode dataset
      service).sim.context.register.Numbered := by
  intro id badge hbadge
  obtain ⟨task, htask, rfl⟩ := Option.map_eq_some_iff.mp hbadge
  exact (Simulation.start_task? hdataset htask).1

end Moment
end FogDispatch
