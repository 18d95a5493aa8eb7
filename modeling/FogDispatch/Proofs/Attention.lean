import FogDispatch.Proofs.Books

/-!
# The attention of the gateway

The gateway is deciding exactly while one wake is to come, so every wake finds
it deciding and every consultation finds it idle.  The relation below lists what
a message addressed to the right place does, together with whether the strategy
is consulted about it.
-/

namespace FogDispatch

variable {α σ : Type} [Arith α]

namespace Simulation

/-- What taking note of a message comes to, and whether it prompts a
consultation. -/
inductive Hears (sim : Simulation α) : Message → Simulation α → Bool → Prop
  | arrival (id : TaskId) :
      Hears sim (.taskArrival id)
        (sim.modifyGateway fun g => { g with pending := g.pending ++ [id] })
        (sim.gateway.state == .idle && sim.context.topology.anyCandidateIdle)
  | wake :
      Hears sim .gatewayWake
        (sim.modifyGateway fun g => { g with state := .idle, recheck := false })
        (!sim.gateway.allNodesBusy || sim.gateway.recheck)
  | due (hstate : sim.gateway.state = .idle) :
      Hears sim .decisionDue sim true
  | overdue (hstate : sim.gateway.state = .deciding) :
      Hears sim .decisionDue
        (sim.modifyGateway fun g => { g with recheck := true }) false
  | submission (id : TaskId) (node : NodeId) (delay : Span α) :
      Hears sim (.taskSubmit id node)
        { sim with
          queue := sim.queue.schedule delay .gateway (.taskFinished id node) }
        false
  | lost (id : TaskId) (node : NodeId) :
      Hears sim (.taskSubmit id node) sim false
  | completion (id : TaskId) (node : NodeId)
      (hstate : sim.gateway.state = .idle) :
      Hears sim (.taskFinished id node)
        { sim with
          context := sim.context.finished id node sim.queue.now
          queue := sim.queue.schedule Span.zero .gateway .decisionDue } false
  | interruption (id : TaskId) (node : NodeId)
      (hstate : sim.gateway.state = .deciding) :
      Hears sim (.taskFinished id node)
        { sim with
          context := sim.context.finished id node sim.queue.now
          gateway := { sim.gateway with recheck := true } } false

theorem hears_of_addressed (sim : Simulation α) {event : Event α}
    (haddressed : event.Addressed) :
    sim.Hears event.message (sim.heard event.target event.message)
      (sim.prompts event.target event.message) := by
  unfold Event.Addressed at haddressed
  cases hmessage : event.message with
  | taskArrival id =>
      rw [hmessage] at haddressed
      rw [haddressed]
      exact .arrival id
  | gatewayWake =>
      rw [hmessage] at haddressed
      rw [haddressed]
      exact .wake
  | decisionDue =>
      rw [hmessage] at haddressed
      rw [haddressed]
      cases hstate : sim.gateway.state with
      | idle =>
          simp only [heard, prompts, hstate]
          exact .due hstate
      | deciding =>
          simp only [heard, prompts, hstate]
          exact .overdue hstate
  | taskSubmit id node =>
      rw [hmessage] at haddressed
      obtain ⟨datacenter, htarget⟩ := haddressed
      rw [htarget]
      simp only [heard, prompts, runOnDatacenter]
      split
      next => exact .submission id node _
      next => exact .lost id node
  | taskFinished id node =>
      rw [hmessage] at haddressed
      rw [haddressed]
      cases hstate : sim.gateway.state with
      | idle =>
          simp only [heard, prompts, onFinished, hstate]
          exact .completion id node hstate
      | deciding =>
          simp only [heard, prompts, onFinished, hstate]
          exact .interruption id node hstate

/-- The gateway is deciding exactly while one wake is to come. -/
def Watched (sim : Simulation α) : Prop :=
  sim.queue.messages.count .gatewayWake =
    if sim.gateway.state = .deciding then 1 else 0

variable {sim popped : Simulation α} {ending : EndCondition α}
  {event : Event α}

theorem Watched.next_deciding (hwatched : sim.Watched)
    (hnext : sim.next? ending = some (event, popped))
    (hmessage : event.message = .gatewayWake) :
    sim.gateway.state = .deciding ∧
      popped.queue.messages.count .gatewayWake = 0 := by
  have hcount := count_next hnext .gatewayWake
  rw [if_pos hmessage] at hcount
  rw [Watched, hcount] at hwatched
  split at hwatched
  next hstate => exact ⟨hstate, by omega⟩
  next => omega

theorem Watched.next_other (hwatched : sim.Watched)
    (hnext : sim.next? ending = some (event, popped))
    (hmessage : event.message ≠ .gatewayWake) : popped.Watched := by
  obtain ⟨hgateway, _, _⟩ := next?_eq_some hnext
  have hcount := count_next hnext .gatewayWake
  rw [if_neg hmessage, Nat.add_zero] at hcount
  rw [Watched, hgateway, ← hcount]
  exact hwatched

theorem Watched.hear (hwatched : sim.Watched)
    (hnext : sim.next? ending = some (event, popped)) {message : Message}
    (hmessage : event.message = message) {after : Simulation α}
    {prompted : Bool} (hears : popped.Hears message after prompted) :
    after.Watched := by
  have hother := hwatched.next_other hnext
  rw [hmessage] at hother
  cases hears with
  | arrival id => exact hother (by simp)
  | wake => exact (hwatched.next_deciding hnext hmessage).2
  | due hstate => exact hother (by simp)
  | overdue hstate => exact hother (by simp)
  | submission id node delay =>
      rw [Watched, EventQueue.count_schedule, if_neg (by simp)]
      exact hother (by simp)
  | lost id node => exact hother (by simp)
  | completion id node hstate =>
      rw [Watched, EventQueue.count_schedule, if_neg (by simp)]
      exact hother (by simp)
  | interruption id node hstate => exact hother (by simp)

theorem count_wake_settled (sim : Simulation α) (decision : Decision α)
    (strategy : Strategy α) (ctx : Context α) :
    (sim.settled (some decision) strategy ctx).queue.messages.count
        .gatewayWake = sim.queue.messages.count .gatewayWake + 1 := by
  obtain ⟨outcome, cost⟩ := decision
  cases outcome with
  | assigned task node transfer =>
      simp only [settled, enact, dispatch]
      split <;> simp
  | dropped task => simp [settled, enact, dispatch]
  | rejected node => simp [settled, enact, dispatch]
  | noCapacity => simp [settled, enact, dispatch]

theorem Watched.settle (hwatched : sim.Watched)
    (hidle : sim.gateway.state = .idle) (decision : Option (Decision α))
    (strategy : Strategy α) (ctx : Context α) :
    (sim.settled decision strategy ctx).Watched := by
  rw [Watched, hidle] at hwatched
  cases decision with
  | none =>
      change sim.queue.messages.count .gatewayWake =
        if sim.gateway.state = .deciding then 1 else 0
      rw [hidle]
      exact hwatched
  | some decision =>
      rw [Watched, count_wake_settled, hwatched]
      rfl

end Simulation

namespace Moment

variable {policy : Policy (StateM σ) α} {ending : EndCondition α}

theorem Step.watched {before after : Moment σ α} {turn : Turn α}
    (hstep : before.Step policy ending turn after)
    (hbooks : before.sim.Books) (hwatched : before.sim.Watched) :
    after.sim.Watched := by
  apply hstep.preserves Simulation.Watched
  · intro event popped hnext
    obtain ⟨haddressed, _⟩ := hbooks.ledger.addressed_next hnext
    exact hwatched.hear hnext rfl
      (Simulation.hears_of_addressed popped haddressed)
  · intro sim decision strategy ctx service hheard hidle _
    exact hheard.settle hidle decision strategy ctx

theorem start_watched (gateway : Gateway α) (ctx : Context α) (episode : Nat)
    (dataset : Dataset α) (service : σ) :
    (start gateway ctx episode dataset service).sim.Watched := by
  have harrivals := Episode.arrivals_messages dataset.tasks
  change (Episode.arrivals dataset.tasks).messages.count .gatewayWake = 0
  rw [harrivals.count_eq, List.count_eq_zero]
  simp

theorem Run.watched {gateway : Gateway α} {ctx : Context α} {episode : Nat}
    {dataset : Dataset α} {service : σ} {turns : List (Turn α)}
    {last : Moment σ α} (hdataset : dataset.Fresh)
    (htopology : ctx.topology.Built)
    (hrun : Run policy ending (start gateway ctx episode dataset service)
      turns last) : last.sim.Watched := by
  apply hrun.invariant_of_books _ (start_books hdataset htopology)
    (start_watched gateway ctx episode dataset service)
  intro before turn after hbooks hwatched hstep
  exact hstep.watched hbooks hwatched

end Moment
end FogDispatch
