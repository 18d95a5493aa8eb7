import FogDispatch.Proofs.Books

/-!
# Punctual completions

The clock runs forward, so a task whose finish is noted has finished by now.
A sweep at any later time therefore releases every finished task that was
running.
-/

namespace FogDispatch

variable {α σ : Type} [Arith α]

namespace Simulation

/-- The events stand in order and no finish lies ahead. -/
structure Punctual (sim : Simulation α) : Prop where
  ordered : sim.queue.Ordered
  past : ∀ id task finish, sim.context.task? id = some task →
    task.finish = some finish → finish.isBy sim.queue.now = true

theorem Books.hosts_of_running {sim : Simulation α} (hbooks : sim.Books)
    (hpunctual : sim.Punctual) {id : TaskId}
    (hid : id ∈ (sim.context.releaseFinished sim.queue.now).running) :
    ∃ place, sim.context.hosts place id = true := by
  rw [Context.releaseFinished_running, List.mem_filter] at hid
  obtain ⟨hrunning, hopen⟩ := hid
  have hpresent : 0 < sim.presence id := by
    have hcount := List.count_pos_iff.mpr hrunning
    rw [presence]
    omega
  obtain ⟨task, htask⟩ := hbooks.ledger.task_of_presence hpresent
  have hplaced := hbooks.ledger.placed id task htask
  cases hnode : task.node with
  | none =>
      have hcount := List.count_pos_iff.mpr hrunning
      rw [hnode, Option.isSome_none, if_neg (by simp)] at hplaced
      omega
  | some place =>
      refine ⟨place, Context.hosts_iff.mpr ⟨task, htask, hnode, ?_⟩⟩
      cases hfinish : task.finish with
      | none => rfl
      | some finish =>
          -- a finish lies in the past, so the sweep takes it
          have hpast := hpunctual.past id task finish htask hfinish
          simp [Context.isFinishedBy, htask, Task.isFinishedBy, hfinish,
            hpast] at hopen

theorem arrivals_ordered [Std.TransCmp (Arith.order : α → α → Ordering)]
    (tasks : List (Task α)) : (Episode.arrivals tasks).Ordered := by
  suffices hfold : ∀ queue : EventQueue α, queue.Ordered →
      (tasks.foldl (fun queue task =>
        queue.push task.arrival .gateway (.taskArrival task.id))
          queue).Ordered from hfold _ EventQueue.empty_ordered
  induction tasks with
  | nil => exact fun queue hqueue => hqueue
  | cons task rest ih => exact fun queue hqueue => ih _ (hqueue.push _ _ _)

theorem start_punctual [Std.TransCmp (Arith.order : α → α → Ordering)]
    {gateway : Gateway α} {ctx : Context α} {dataset : Dataset α}
    (hdataset : dataset.Fresh) (episode : Nat) :
    (Episode.initial gateway.reset
      (ctx.startEpisode episode dataset.jobs dataset.tasks)).Punctual := by
  constructor
  · exact arrivals_ordered dataset.tasks
  · intro id task finish htask hfinish
    rw [(start_task? hdataset htask).2.finish] at hfinish
    cases hfinish

end Simulation

theorem Strategy.Consults.finish_eq {policy : Policy (StateM σ) α}
    {strategy next : Strategy α} {pending : List TaskId}
    {ctx after : Context α} {now : Time α} {before left : σ}
    {decision : Option (Decision α)}
    (hconsults : strategy.Consults policy pending ctx now before decision next
      after left)
    (id : TaskId) :
    (after.task? id).map Task.finish = (ctx.task? id).map Task.finish := by
  cases hconsults with
  | silent hoffers => simp
  | full hasked hfull => simp
  | crowded hasked hnames hbusy hnone => simp
  | rejected hasked hnames hbusy hidle => simp
  | @dropped answer _ _ _ _ _ _ hasked hnames hidle hmissed hfeedback =>
      change ((ctx.sampled now answer).task? id).map _ = _
      simp
  | @assigned answer _ _ other place task node hasked hnames hidle hmeets
      hfeedback =>
      have hbound := Context.task?_modifyTask
        ((ctx.sampled now answer)) task.id id fun t =>
          { t with
            node := some node.id
            decisionCost := answer.cost
            start := some ((ctx.sampled now answer).startOn task node now
              answer.cost) }
      change (((ctx.sampled now answer).modifyTask task.id _).task? id).map _ =
        _
      rw [hbound, Context.sampled_task?]
      split
      next =>
        rw [Option.map_map]
        rfl
      next => rfl

namespace Simulation

variable [Std.TransCmp (Arith.order : α → α → Ordering)]

theorem Punctual.hear {sim popped : Simulation α} {ending : EndCondition α}
    {event : Event α} (hpunctual : sim.Punctual)
    (hnext : sim.next? ending = some (event, popped)) :
    (popped.heard event.target event.message).Punctual := by
  obtain ⟨_, _, hpop⟩ := next?_eq_some hnext
  obtain ⟨hordered, hclock⟩ := hpunctual.ordered.pop hpop
  constructor
  · apply heard_queue_keeps EventQueue.Ordered _ hordered
    intro queue delay target message hqueue
    exact hqueue.schedule delay target message
  · intro id task finish htask hfinish
    rw [heard_now]
    rcases heard_context hnext with hsame | ⟨done, node, _, hfinished⟩
    · rw [hsame] at htask
      exact Time.isBy_trans (hpunctual.past id task finish htask hfinish)
        hclock
    · rw [hfinished, Context.finished_task?] at htask
      split at htask
      next =>
        obtain ⟨before, _, rfl⟩ := Option.map_eq_some_iff.mp htask
        obtain rfl : popped.queue.now = finish := Option.some.inj hfinish
        exact Time.isBy_refl _
      next =>
        exact Time.isBy_trans (hpunctual.past id task finish htask hfinish)
          hclock

theorem Punctual.consult {sim : Simulation α} {policy : Policy (StateM σ) α}
    {decision : Option (Decision α)} {strategy : Strategy α}
    {ctx : Context α} {before after : σ} (hpunctual : sim.Punctual)
    (hconsults : sim.gateway.strategy.Consults policy sim.gateway.pending
      sim.context sim.queue.now before decision strategy ctx after) :
    (sim.settled decision strategy ctx).Punctual := by
  constructor
  · apply settled_queue_keeps EventQueue.Ordered _ hpunctual.ordered
    intro queue delay target message hqueue
    exact hqueue.schedule delay target message
  · intro id task finish htask hfinish
    rw [settled_context] at htask
    have hsame := hconsults.finish_eq id
    rw [htask, Option.map_some, hfinish] at hsame
    obtain ⟨earlier, hearlier, hnoted⟩ :=
      Option.map_eq_some_iff.mp hsame.symm
    rw [settled_now]
    exact hpunctual.past id earlier finish hearlier hnoted

end Simulation

namespace Moment

variable [Std.TransCmp (Arith.order : α → α → Ordering)]
  {policy : Policy (StateM σ) α} {ending : EndCondition α}

theorem Step.punctual {before after : Moment σ α} {turn : Turn α}
    (hstep : before.Step policy ending turn after)
    (hpunctual : before.sim.Punctual) : after.sim.Punctual := by
  apply hstep.preserves Simulation.Punctual
  · intro event popped hnext
    exact hpunctual.hear hnext
  · intro sim decision strategy ctx service hheard _ hconsults
    exact hheard.consult hconsults

theorem Run.punctual {gateway : Gateway α} {ctx : Context α} {episode : Nat}
    {dataset : Dataset α} {service : σ} {turns : List (Turn α)}
    {last : Moment σ α} (hdataset : dataset.Fresh)
    (hrun : Run policy ending (start gateway ctx episode dataset service)
      turns last) : last.sim.Punctual :=
  hrun.invariant (fun _ _ _ hgood hstep => hstep.punctual hgood)
    (Simulation.start_punctual hdataset episode)

end Moment
end FogDispatch
