import FogDispatch.Proofs.Delivery

/-!
# Runs of an episode

A run is cut at its events.  A moment is the state between two events together
with the memory of the service, and a turn tells which event was delivered and
what the strategy came to if the gateway consulted it.  The loop of an episode
takes exactly the turns of such a run, so whatever every turn keeps holds
between any two events of every episode.
-/

namespace FogDispatch

variable {α σ : Type} [Arith α]

/-- One delivered event.  If the strategy was consulted meanwhile, it may have
come to a decision. -/
structure Turn (α : Type) where
  event : Event α
  consulted : Option (Option (Decision α))

namespace Turn

def decision? (turn : Turn α) : Option (Decision α) := turn.consulted.join

end Turn

/-- The simulation and the memory of its service between two events. -/
structure Moment (σ α : Type) where
  sim : Simulation α
  service : σ

namespace Moment

/-- One event is delivered without a fault. -/
inductive Step (policy : Policy (StateM σ) α) (ending : EndCondition α)
    (before : Moment σ α) : Turn α → Moment σ α → Prop
  | quiet {event : Event α} {popped : Simulation α}
      (hnext : before.sim.next? ending = some (event, popped))
      (hquiet : popped.prompts event.target event.message = false) :
      Step policy ending before ⟨event, none⟩
        ⟨popped.heard event.target event.message, before.service⟩
  | consulted {event : Event α} {popped sim : Simulation α}
      {decision : Option (Decision α)} {strategy : Strategy α}
      {ctx : Context α} {service : σ}
      (hnext : before.sim.next? ending = some (event, popped))
      (hprompts : popped.prompts event.target event.message = true)
      (hheard : sim = popped.heard event.target event.message)
      (hdecide : (sim.gateway.strategy.decide sim.gateway.pending sim.context
        policy sim.queue.now).run before.service =
          (⟨.ok decision, strategy, ctx⟩, service)) :
      Step policy ending before ⟨event, some decision⟩
        ⟨sim.settled decision strategy ctx, service⟩

/-- A turn is a delivery without a fault. -/
theorem step_iff {policy : Policy (StateM σ) α} {ending : EndCondition α}
    {before after : Moment σ α} {event : Event α} {popped : Simulation α}
    (hnext : before.sim.next? ending = some (event, popped)) :
    (∃ consulted, before.Step policy ending ⟨event, consulted⟩ after) ↔
      (popped.deliver policy event.target event.message).run before.service =
        ((.ok (), after.sim), after.service) := by
  rw [Simulation.deliver_eq]
  constructor
  · rintro ⟨consulted, hstep⟩
    cases hstep with
    | quiet hother hquiet =>
        obtain rfl : popped = _ := by simpa [hnext] using hother
        rw [if_neg (by simp [hquiet])]
        rfl
    | consulted hother hprompts hheard hdecide =>
        obtain rfl : popped = _ := by simpa [hnext] using hother
        subst hheard
        rw [if_pos hprompts]
        exact Simulation.decide_ok_iff.mpr ⟨_, _, _, hdecide, rfl⟩
  · intro hrun
    obtain ⟨sim, service⟩ := after
    split at hrun
    next hprompts =>
      obtain ⟨decision, strategy, ctx, hdecide, rfl⟩ :=
        Simulation.decide_ok_iff.mp hrun
      exact ⟨_, .consulted hnext hprompts rfl hdecide⟩
    next hquiet =>
      cases hrun
      exact ⟨_, .quiet hnext (by simpa using hquiet)⟩

/-- What holds once the next message is taken note of, and stays so whatever
the strategy comes to, holds after the turn. -/
theorem Step.preserves {policy : Policy (StateM σ) α} {ending : EndCondition α}
    {before after : Moment σ α} {turn : Turn α} (Good : Simulation α → Prop)
    (hheard : ∀ event popped, before.sim.next? ending = some (event, popped) →
      Good (popped.heard event.target event.message))
    (hsettled : ∀ sim decision strategy ctx service, Good sim →
      sim.gateway.state = .idle →
      sim.gateway.strategy.Consults policy sim.gateway.pending sim.context
        sim.queue.now before.service decision strategy ctx service →
      Good (sim.settled decision strategy ctx))
    (hstep : before.Step policy ending turn after) : Good after.sim := by
  cases hstep with
  | @quiet event popped hnext hquiet => exact hheard event popped hnext
  | @consulted event popped sim decision strategy ctx service hnext hprompts
      hsim hdecide =>
      subst hsim
      exact hsettled _ decision strategy ctx service
        (hheard event popped hnext)
        (Simulation.idle_of_prompts _ _ _ hprompts)
        (Strategy.decide_ok hdecide)

theorem Step.next {policy : Policy (StateM σ) α} {ending : EndCondition α}
    {before after : Moment σ α} {turn : Turn α}
    (hstep : before.Step policy ending turn after) :
    ∃ popped, before.sim.next? ending = some (turn.event, popped) := by
  cases hstep with
  | quiet hnext hquiet => exact ⟨_, hnext⟩
  | consulted hnext hprompts hheard hdecide => exact ⟨_, hnext⟩

/-- A finite sequence of turns leads from one moment to another. -/
inductive Run (policy : Policy (StateM σ) α) (ending : EndCondition α) :
    Moment σ α → List (Turn α) → Moment σ α → Prop
  | done (now : Moment σ α) : Run policy ending now [] now
  | turn {before middle after : Moment σ α} {turn : Turn α}
      {turns : List (Turn α)} (hstep : before.Step policy ending turn middle)
      (hrun : Run policy ending middle turns after) :
      Run policy ending before (turn :: turns) after

/-- How a run ends on its own: no event is left, or one ends in a fault. -/
inductive Ends (policy : Policy (StateM σ) α) (ending : EndCondition α)
    (last : Moment σ α) : Except Fault Unit × Simulation α → σ → Prop
  | finished (hnext : last.sim.next? ending = none) :
      Ends policy ending last (.ok (), last.sim.closeClock ending)
        last.service
  | failed {event : Event α} {popped final : Simulation α} {fault : Fault}
      {service : σ} (hnext : last.sim.next? ending = some (event, popped))
      (hdeliver : (popped.deliver policy event.target event.message).run
        last.service = ((.error fault, final), service)) :
      Ends policy ending last (.error fault, final) service

variable {policy : Policy (StateM σ) α} {ending : EndCondition α}

theorem Run.invariant {Good : Moment σ α → Prop}
    (hkeeps : ∀ before turn after, Good before →
      before.Step policy ending turn after → Good after)
    {first last : Moment σ α} {turns : List (Turn α)}
    (hrun : Run policy ending first turns last) (hfirst : Good first) :
    Good last := by
  induction hrun with
  | done now => exact hfirst
  | turn hstep _ ih => exact ih (hkeeps _ _ _ hfirst hstep)

theorem Run.append {first middle last : Moment σ α}
    {earlier later : List (Turn α)}
    (hearlier : Run policy ending first earlier middle)
    (hlater : Run policy ending middle later last) :
    Run policy ending first (earlier ++ later) last := by
  induction hearlier with
  | done now => exact hlater
  | turn hstep _ ih => exact .turn hstep (ih hlater)

theorem Run.split {first last : Moment σ α} {earlier later : List (Turn α)}
    (hrun : Run policy ending first (earlier ++ later) last) :
    ∃ middle, Run policy ending first earlier middle ∧
      Run policy ending middle later last := by
  induction earlier generalizing first with
  | nil => exact ⟨first, .done first, hrun⟩
  | cons turn earlier ih =>
      cases hrun with
      | turn hstep hrest =>
          obtain ⟨middle, hbefore, hafter⟩ := ih hrest
          exact ⟨middle, .turn hstep hbefore, hafter⟩

/-- The loop takes the turns of a run, until the run ends or no more events are
allotted. -/
theorem runEvents_run (policy : Policy (StateM σ) α)
    (ending : EndCondition α) (allotted : Nat) (start : Moment σ α) :
    ∃ turns last, Run policy ending start turns last ∧
      ((turns.length = allotted ∧
          (start.sim.runEvents policy ending allotted).run start.service =
            ((.error .unfinished, last.sim), last.service)) ∨
        turns.length < allotted ∧ ∃ result service,
          Ends policy ending last result service ∧
          (start.sim.runEvents policy ending allotted).run start.service =
            (result, service)) := by
  induction allotted generalizing start with
  | zero => exact ⟨[], start, .done start, Or.inl ⟨rfl, rfl⟩⟩
  | succ allotted ih =>
      unfold Simulation.runEvents
      cases hnext : start.sim.next? ending with
      | none =>
          exact ⟨[], start, .done start,
            Or.inr ⟨by simp, _, _, .finished hnext, rfl⟩⟩
      | some pair =>
          obtain ⟨event, popped⟩ := pair
          cases hdeliver : (popped.deliver policy event.target
              event.message).run start.service with
          | mk delivered service =>
              obtain ⟨result, after⟩ := delivered
              cases result with
              | error fault =>
                  refine ⟨[], start, .done start,
                    Or.inr ⟨by simp, _, _, .failed hnext hdeliver, ?_⟩⟩
                  exact run_bind_eq hdeliver
              | ok _ =>
                  have hturn : ∃ consulted, start.Step policy ending
                      ⟨event, consulted⟩ ⟨after, service⟩ :=
                    (step_iff hnext).mpr hdeliver
                  obtain ⟨consulted, hstep⟩ := hturn
                  obtain ⟨turns, last, hrun, hend⟩ := ih ⟨after, service⟩
                  refine ⟨_ :: turns, last, .turn hstep hrun, ?_⟩
                  simp only [List.length_cons, Nat.add_right_cancel_iff,
                    Nat.add_lt_add_iff_right]
                  rw [run_bind_eq hdeliver]
                  exact hend

/-- The loop stands at the end of every run when its events are used up. -/
theorem Run.runEvents {first last : Moment σ α} {turns : List (Turn α)}
    (hrun : Run policy ending first turns last) :
    (first.sim.runEvents policy ending turns.length).run first.service =
      ((.error .unfinished, last.sim), last.service) := by
  induction hrun with
  | done now => rfl
  | @turn before middle after turn turns hstep _ ih =>
      obtain ⟨event, consulted⟩ := turn
      obtain ⟨popped, hnext⟩ := hstep.next
      have hdeliver := (step_iff hnext).mp ⟨consulted, hstep⟩
      rw [List.length_cons]
      unfold Simulation.runEvents
      rw [hnext]
      exact (run_bind_eq hdeliver).trans ih

/-- An episode takes the turns of a run, until the run ends or no more events
are allotted. -/
theorem run_of_ended {allotted : Nat} {gateway : Gateway α} {ctx : Context α}
    {service left : σ} {result : Except Fault (Time α)} {final : Simulation α}
    (hepisode : (Episode.run allotted policy ending gateway ctx).run service =
      ((result, final), left)) :
    ∃ turns last, Run policy ending ⟨Episode.initial gateway ctx, service⟩
        turns last ∧
      ((result = .error .unfinished ∧ left = last.service ∧
          final = last.sim) ∨
        ∃ reached, Ends policy ending last (reached, final) left ∧
          result = reached.map fun _ => final.queue.now) := by
  obtain ⟨turns, last, hrun, hend⟩ := runEvents_run policy ending allotted
    (⟨Episode.initial gateway ctx, service⟩ : Moment σ α)
  refine ⟨turns, last, hrun, ?_⟩
  unfold Episode.run at hepisode
  rcases hend with ⟨_, hevents⟩ | ⟨_, ⟨reached, after⟩, stopped, hends, hevents⟩
  · rw [run_bind_eq hevents] at hepisode
    cases hepisode
    exact Or.inl ⟨rfl, rfl, rfl⟩
  · rw [run_bind_eq hevents] at hepisode
    cases reached <;> cases hepisode <;> exact Or.inr ⟨_, hends, rfl⟩

/-- An episode without a fault stops where no event is left to deliver. -/
theorem run_of_episode {allotted : Nat} {gateway : Gateway α}
    {ctx : Context α} {service left : σ} {clock : Time α}
    {final : Simulation α}
    (hepisode : (Episode.run allotted policy ending gateway ctx).run service =
      ((.ok clock, final), left)) :
    ∃ turns last, Run policy ending ⟨Episode.initial gateway ctx, service⟩
        turns last ∧ last.sim.next? ending = none ∧
      final = last.sim.closeClock ending ∧ clock = final.queue.now ∧
      left = last.service := by
  obtain ⟨turns, last, hrun, hcut | ⟨reached, hends, hclock⟩⟩ :=
    run_of_ended hepisode
  · cases hcut.1
  · cases hends with
    | finished hnext =>
        cases hclock
        exact ⟨turns, last, hrun, hnext, rfl, rfl, rfl⟩
    | failed hnext hdeliver => cases hclock

/-- In some run the service is asked about a state and its answer is read. -/
def Asks (policy : Policy (StateM σ) α) (ending : EndCondition α)
    (first : Moment σ α) (sim : Simulation α) (answer : Answer α) : Prop :=
  ∃ turns now event popped service,
    Run policy ending first turns now ∧
    now.sim.next? ending = some (event, popped) ∧
    popped.prompts event.target event.message = true ∧
    sim = popped.heard event.target event.message ∧
    sim.gateway.strategy.Asked policy sim.gateway.pending sim.context
      sim.queue.now now.service answer service

theorem Asks.turn {first next : Moment σ α} {turn : Turn α}
    (hstep : first.Step policy ending turn next) {sim : Simulation α}
    {answer : Answer α} (hasks : Asks policy ending next sim answer) :
    Asks policy ending first sim answer := by
  obtain ⟨turns, now, event, popped, service, hrun, hasked⟩ := hasks
  exact ⟨turn :: turns, now, event, popped, service, .turn hstep hrun, hasked⟩

/-! ## Computing runs -/

/-- The moment after the next event, if it is delivered without a fault. -/
def next? (policy : Policy (StateM σ) α) (ending : EndCondition α)
    (now : Moment σ α) : Option (Moment σ α) :=
  match now.sim.next? ending with
  | none => none
  | some (event, popped) =>
    match (popped.deliver policy event.target event.message).run
        now.service with
    | ((.ok (), sim), service) => some ⟨sim, service⟩
    | ((.error _, _), _) => none

def after? (policy : Policy (StateM σ) α) (ending : EndCondition α) :
    Nat → Moment σ α → Option (Moment σ α)
  | 0, now => some now
  | count + 1, now =>
    match now.next? policy ending with
    | none => none
    | some next => after? policy ending count next

theorem step_of_next? {now next : Moment σ α}
    (hnext : now.next? policy ending = some next) :
    ∃ turn, now.Step policy ending turn next := by
  unfold next? at hnext
  split at hnext
  next => contradiction
  next event popped hpopped =>
    split at hnext
    next sim service hdeliver =>
      obtain rfl := Option.some.inj hnext
      have hturn : ∃ consulted,
          now.Step policy ending ⟨event, consulted⟩ ⟨sim, service⟩ :=
        (step_iff hpopped).mpr hdeliver
      obtain ⟨consulted, hstep⟩ := hturn
      exact ⟨_, hstep⟩
    next => contradiction

theorem run_of_after? {count : Nat} {first last : Moment σ α}
    (hafter : first.after? policy ending count = some last) :
    ∃ turns, turns.length = count ∧ Run policy ending first turns last := by
  induction count generalizing first with
  | zero =>
      obtain rfl := Option.some.inj hafter
      exact ⟨[], rfl, .done first⟩
  | succ count ih =>
      unfold after? at hafter
      split at hafter
      next => contradiction
      next next hnext =>
        obtain ⟨turn, hstep⟩ := step_of_next? hnext
        obtain ⟨turns, hlength, hrun⟩ := ih hafter
        exact ⟨turn :: turns, by rw [List.length_cons, hlength],
          .turn hstep hrun⟩

/-- The next events, as far as they are delivered without a fault. -/
def events (policy : Policy (StateM σ) α) (ending : EndCondition α) :
    Nat → Moment σ α → List (Event α)
  | 0, _ => []
  | count + 1, now =>
    match now.sim.next? ending, now.next? policy ending with
    | some (event, _), some next => event :: events policy ending count next
    | _, _ => []

theorem run_of_events {count : Nat} {first last : Moment σ α}
    (hafter : first.after? policy ending count = some last) :
    ∃ turns, turns.map Turn.event = first.events policy ending count ∧
      Run policy ending first turns last := by
  induction count generalizing first with
  | zero =>
      obtain rfl := Option.some.inj hafter
      exact ⟨[], rfl, .done first⟩
  | succ count ih =>
      unfold after? at hafter
      split at hafter
      next => contradiction
      next next hnext =>
        obtain ⟨turn, hstep⟩ := step_of_next? hnext
        obtain ⟨popped, hpopped⟩ := hstep.next
        obtain ⟨turns, hevents, hrun⟩ := ih hafter
        refine ⟨turn :: turns, ?_, .turn hstep hrun⟩
        simp only [events, hpopped, hnext, List.map_cons, hevents]

end Moment
end FogDispatch
