import FogDispatch.Proofs.Attention
import FogDispatch.Proofs.Requests

/-!
# Completions are followed up

The gateway takes one decision at a time: it is deciding exactly while one wake
is to come, it notes freed capacity only meanwhile, and it asks the service only
when no wake is to come.  Every completion makes it look at its queue again.  A
completion that finds it idle puts a due decision into the queue, and one that
finds it deciding leaves a note; neither gets lost before the next consultation.

Nothing is assumed of the tasks and the devices of the episode, nor of the order
in which events are delivered.
-/

namespace FogDispatch

variable {α σ : Type} [Arith α]

namespace Simulation

/-- What the gateway and the events to come have to agree on. -/
structure Tuned (sim : Simulation α) : Prop where
  addressed : ∀ event ∈ sim.queue.future, event.Addressed
  watched : sim.Watched
  noted : sim.gateway.recheck = true → sim.gateway.state = .deciding

/-- A consultation is bound to come: it is due, or freed capacity is noted. -/
def Alerted (sim : Simulation α) : Prop :=
  .decisionDue ∈ sim.queue.messages ∨
    (sim.gateway.state = .deciding ∧ sim.gateway.recheck = true)

variable {sim popped : Simulation α} {ending : EndCondition α}
  {event : Event α}

/-! ## Hearing a message -/

theorem addressed_heard
    (haddressed : ∀ event ∈ sim.queue.future, event.Addressed)
    {message : Message} {after : Simulation α} {prompted : Bool}
    (hears : sim.Hears message after prompted) :
    ∀ event ∈ after.queue.future, event.Addressed := by
  cases hears with
  | arrival id => exact haddressed
  | wake => exact haddressed
  | due hstate => exact haddressed
  | overdue hstate => exact haddressed
  | submission id node delay =>
      exact addressed_push haddressed _ fun _ _ => rfl
  | lost id node => exact haddressed
  | completion id node hstate =>
      exact addressed_push haddressed _ fun _ _ => rfl
  | interruption id node hstate => exact haddressed

theorem noted_heard
    (hnoted : sim.gateway.recheck = true → sim.gateway.state = .deciding)
    {message : Message} {after : Simulation α} {prompted : Bool}
    (hears : sim.Hears message after prompted)
    (hrecheck : after.gateway.recheck = true) :
    after.gateway.state = .deciding := by
  cases hears with
  | arrival id => exact hnoted hrecheck
  | wake => cases hrecheck
  | due hstate => exact hnoted hrecheck
  | overdue hstate => exact hstate
  | submission id node delay => exact hnoted hrecheck
  | lost id node => exact hnoted hrecheck
  | completion id node hstate => exact hnoted hrecheck
  | interruption id node hstate => exact hstate

theorem Tuned.hears (htuned : sim.Tuned)
    (hnext : sim.next? ending = some (event, popped)) :
    popped.Hears event.message (popped.heard event.target event.message)
      (popped.prompts event.target event.message) := by
  have hmem : event ∈ sim.queue.future :=
    (mem_future_next hnext).mpr (Or.inl rfl)
  exact hears_of_addressed popped (htuned.addressed event hmem)

theorem Tuned.hear (htuned : sim.Tuned)
    (hnext : sim.next? ending = some (event, popped)) :
    (popped.heard event.target event.message).Tuned := by
  obtain ⟨hgateway, _, _⟩ := next?_eq_some hnext
  have hears := htuned.hears hnext
  have hleft : ∀ other ∈ popped.queue.future, other.Addressed := by
    intro other hother
    exact htuned.addressed other
      ((mem_future_next hnext).mpr (Or.inr hother))
  have hnoted : popped.gateway.recheck = true →
      popped.gateway.state = .deciding := by
    rw [hgateway]
    exact htuned.noted
  exact ⟨addressed_heard hleft hears, htuned.watched.hear hnext rfl hears,
    noted_heard hnoted hears⟩

/-- A completion alerts the gateway, whatever it is doing. -/
theorem alerted_of_finished {message : Message} {after : Simulation α}
    {prompted : Bool} (hears : sim.Hears message after prompted)
    {id : TaskId} {node : NodeId} (hmessage : message = .taskFinished id node) :
    after.Alerted ∧ prompted = false := by
  cases hears with
  | arrival id => cases hmessage
  | wake => cases hmessage
  | due hstate => cases hmessage
  | overdue hstate => cases hmessage
  | submission id node delay => cases hmessage
  | lost id node => cases hmessage
  | completion id node hstate =>
      exact ⟨Or.inl (EventQueue.mem_messages_schedule.mpr (Or.inl rfl)), rfl⟩
  | interruption id node hstate => exact ⟨Or.inr ⟨hstate, rfl⟩, rfl⟩

/-- An alert outlasts every message that prompts no consultation. -/
theorem Alerted.hear_quiet (halerted : sim.Alerted)
    (hnext : sim.next? ending = some (event, popped)) {message : Message}
    (hmessage : event.message = message) {after : Simulation α}
    (hears : popped.Hears message after false) : after.Alerted := by
  obtain ⟨hgateway, _, hpop⟩ := next?_eq_some hnext
  have hkept : message ≠ .decisionDue →
      .decisionDue ∈ popped.queue.messages ∨
        (popped.gateway.state = .deciding ∧
          popped.gateway.recheck = true) := by
    intro hother
    rw [Alerted, EventQueue.pop?_messages hpop, List.mem_cons, hmessage,
      ← hgateway] at halerted
    simpa [hother.symm] using halerted
  generalize hprompted : false = prompted at hears
  cases hears with
  | arrival id => exact hkept (by simp)
  | wake =>
      rw [eq_comm, Bool.or_eq_false_iff] at hprompted
      rcases hkept (by simp) with hdue | ⟨_, hrecheck⟩
      · exact Or.inl hdue
      · rw [hrecheck] at hprompted
        cases hprompted.2
  | due hstate => cases hprompted
  | overdue hstate => exact Or.inr ⟨hstate, rfl⟩
  | submission id node delay =>
      rcases hkept (by simp) with hdue | hnoted
      · exact Or.inl (EventQueue.mem_messages_schedule.mpr (Or.inr hdue))
      · exact Or.inr hnoted
  | lost id node => exact hkept (by simp)
  | completion id node hstate =>
      exact Or.inl (EventQueue.mem_messages_schedule.mpr (Or.inl rfl))
  | interruption id node hstate => exact Or.inr ⟨hstate, rfl⟩

/-! ## Consultations -/

theorem addressed_settled
    (haddressed : ∀ event ∈ sim.queue.future, event.Addressed)
    (decision : Option (Decision α)) (strategy : Strategy α)
    (ctx : Context α) :
    ∀ event ∈ (sim.settled decision strategy ctx).queue.future,
      event.Addressed := by
  rcases decision with _ | ⟨outcome, cost⟩
  · exact haddressed
  · cases outcome with
    | assigned task node transfer =>
        have hwake : ∀ time serial,
            (⟨time, serial, .gateway, .gatewayWake⟩ : Event α).Addressed :=
          fun _ _ => rfl
        simp only [settled, enact, dispatch]
        apply addressed_push _ _ hwake
        split
        next target _ =>
          exact addressed_push haddressed _ fun _ _ => ⟨target.datacenter, rfl⟩
        next => exact haddressed
    | dropped task => exact addressed_push haddressed _ fun _ _ => rfl
    | rejected node => exact addressed_push haddressed _ fun _ _ => rfl
    | noCapacity => exact addressed_push haddressed _ fun _ _ => rfl

theorem Tuned.settle (htuned : sim.Tuned)
    (hidle : sim.gateway.state = .idle) (decision : Option (Decision α))
    (strategy : Strategy α) (ctx : Context α) :
    (sim.settled decision strategy ctx).Tuned := by
  refine ⟨addressed_settled htuned.addressed decision strategy ctx,
    htuned.watched.settle hidle decision strategy ctx, ?_⟩
  cases decision with
  | none => exact htuned.noted
  | some decision => exact fun _ => rfl

/-- The service is asked only by a gateway that waits for no wake. -/
theorem Tuned.count_wake_of_sent (htuned : sim.Tuned)
    (hnext : sim.next? ending = some (event, popped))
    (policy : Policy (StateM σ) α) (memory : σ)
    (hsent : sentBy (popped.deliver policy.recorded event.target
      event.message) memory ≠ []) :
    (popped.heard event.target event.message).queue.messages.count
      .gatewayWake = 0 := by
  have hwatched := (htuned.hear hnext).watched
  rw [deliver_eq] at hsent
  split at hsent
  next hprompts =>
    rw [Watched, idle_of_prompts _ _ _ hprompts] at hwatched
    exact hwatched
  next => exact (hsent rfl).elim

end Simulation

/-! ## Runs -/

namespace Moment

variable {policy : Policy (StateM σ) α} {ending : EndCondition α}

theorem Step.tuned {before after : Moment σ α} {turn : Turn α}
    (hstep : before.Step policy ending turn after)
    (htuned : before.sim.Tuned) : after.sim.Tuned := by
  apply hstep.preserves Simulation.Tuned
  · intro event popped hnext
    exact htuned.hear hnext
  · intro sim decision strategy ctx service hheard hidle _
    exact hheard.settle hidle decision strategy ctx

theorem start_tuned (gateway : Gateway α) (ctx : Context α) (episode : Nat)
    (dataset : Dataset α) (service : σ) :
    (start gateway ctx episode dataset service).sim.Tuned := by
  refine ⟨?_, start_watched gateway ctx episode dataset service, ?_⟩
  · exact Episode.foldl_push_addressed dataset.tasks
      (by simp [EventQueue.empty])
  · intro hrecheck
    cases hrecheck

theorem Run.tuned {first last : Moment σ α} {turns : List (Turn α)}
    (hrun : Run policy ending first turns last) (htuned : first.sim.Tuned) :
    last.sim.Tuned :=
  hrun.invariant (fun _ _ _ hgood hstep => hstep.tuned hgood) htuned

theorem Step.alerted_of_finished {before after : Moment σ α} {turn : Turn α}
    (hstep : before.Step policy ending turn after)
    (htuned : before.sim.Tuned) {id : TaskId} {node : NodeId}
    (hmessage : turn.event.message = .taskFinished id node) :
    after.sim.Alerted := by
  cases hstep with
  | quiet hnext hquiet =>
      exact (Simulation.alerted_of_finished (htuned.hears hnext) hmessage).1
  | consulted hnext hprompts hheard hdecide =>
      have hquiet :=
        (Simulation.alerted_of_finished (htuned.hears hnext) hmessage).2
      rw [hprompts] at hquiet
      cases hquiet

theorem Run.alerted {first last : Moment σ α} {turns : List (Turn α)}
    (hrun : Run policy ending first turns last) (htuned : first.sim.Tuned)
    (halerted : first.sim.Alerted)
    (hquiet : ∀ turn ∈ turns, turn.consulted = none) : last.sim.Alerted := by
  induction hrun with
  | done now => exact halerted
  | @turn before middle after turn turns hstep _ ih =>
      have hrest : ∀ other ∈ turns, other.consulted = none :=
        fun other hother => hquiet other (List.mem_cons_of_mem turn hother)
      apply ih (hstep.tuned htuned) _ hrest
      cases hstep with
      | quiet hnext hprompts =>
          have hears := htuned.hears hnext
          rw [hprompts] at hears
          exact halerted.hear_quiet hnext rfl hears
      | consulted hnext hprompts hheard hdecide =>
          cases hquiet _ List.mem_cons_self

/-- A completion was delivered after the last consultation of the strategy. -/
def Unheeded (turns : List (Turn α)) : Prop :=
  ∃ earlier turn later id node, turns = earlier ++ turn :: later ∧
    turn.event.message = .taskFinished id node ∧
    ∀ other ∈ later, other.consulted = none

/-- One decision is under way at a time, and every completion is followed up. -/
structure FollowedUp (policy : Policy (StateM σ) α) (ending : EndCondition α)
    (turns : List (Turn α)) (now : Moment σ α) : Prop where
  wakes : now.sim.queue.messages.count .gatewayWake =
    if now.sim.gateway.state = .deciding then 1 else 0
  noted : now.sim.gateway.recheck = true → now.sim.gateway.state = .deciding
  asked : ∀ event popped number state,
    now.sim.next? ending = some (event, popped) →
    .askDecision number state ∈ sentBy (popped.deliver policy.recorded
      event.target event.message) now.service →
    (popped.heard event.target event.message).queue.messages.count
      .gatewayWake = 0
  heeded : Unheeded turns → .decisionDue ∈ now.sim.queue.messages ∨
    (now.sim.gateway.state = .deciding ∧ now.sim.gateway.recheck = true)

/-- Between any two events of an episode at most one decision is under way, and
a completion that no consultation has followed yet is about to be followed. -/
theorem completions_followed_up {gateway : Gateway α} {ctx : Context α}
    {episode : Nat} {dataset : Dataset α} {service : σ}
    {turns : List (Turn α)} {now : Moment σ α}
    (hrun : Run policy ending (start gateway ctx episode dataset service)
      turns now) : FollowedUp policy ending turns now := by
  have hstart := start_tuned gateway ctx episode dataset service
  have htuned : now.sim.Tuned := hrun.tuned hstart
  refine ⟨htuned.watched, htuned.noted, ?_, ?_⟩
  · intro event popped number state hnext hasked
    exact htuned.count_wake_of_sent hnext policy now.service
      (List.ne_nil_of_mem hasked)
  · rintro ⟨earlier, turn, later, id, node, rfl, hmessage, hquiet⟩
    obtain ⟨before, hearlier, hrest⟩ := hrun.split
    have hbefore : before.sim.Tuned := hearlier.tuned hstart
    cases hrest with
    | turn hstep hlater =>
        have halerted := hstep.alerted_of_finished hbefore hmessage
        exact hlater.alerted (hstep.tuned hbefore) halerted hquiet

/-- The sixth event of the small episode is the completion of its first task,
for which the second one has been waiting. -/
theorem sample_completions_followed_up :
    ∃ turns now, turns.length = 6 ∧
      Run Sample.service .drained Sample.first turns now ∧
      Unheeded turns ∧ FollowedUp Sample.service .drained turns now := by
  have hcompletion : ((Sample.first.after? Sample.service .drained 5).bind
      fun now => (now.sim.next? .drained).map fun pair => pair.1.message) =
        some (.taskFinished ⟨0⟩ ⟨0⟩) := by
    decide +kernel
  have hreached : ((Sample.first.after? Sample.service .drained 5).bind
      fun now => now.next? Sample.service .drained).isSome = true := by
    decide +kernel
  obtain ⟨now, hnow⟩ := Option.isSome_iff_exists.mp hreached
  obtain ⟨before, hbefore, hlast⟩ := Option.bind_eq_some_iff.mp hnow
  rw [hbefore, Option.bind_some] at hcompletion
  obtain ⟨earlier, hlength, hearlier⟩ := run_of_after? hbefore
  obtain ⟨turn, hstep⟩ := step_of_next? hlast
  obtain ⟨popped, hnext⟩ := hstep.next
  rw [hnext, Option.map_some, Option.some.injEq] at hcompletion
  have hrun : Run Sample.service .drained Sample.first (earlier ++ [turn])
      now := hearlier.append (.turn hstep (.done now))
  refine ⟨earlier ++ [turn], now, ?_, hrun, ?_, completions_followed_up hrun⟩
  · rw [List.length_append, hlength, List.length_singleton]
  · exact ⟨earlier, turn, [], ⟨0⟩, ⟨0⟩, rfl, hcompletion, by simp⟩

end Moment
end FogDispatch
