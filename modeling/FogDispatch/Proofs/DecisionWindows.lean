import FogDispatch.Proofs.FollowUp
import FogDispatch.Proofs.Timetable
import FogDispatch.Proofs.TimeLimit

/-!
# The windows of decisions

A decision takes a window of time, from its consultation to the wake that ends
it.  The gateway decides nothing before that wake, whatever comes in between,
so no window starts inside an earlier one and together they fit into the clock.
-/

namespace FogDispatch

section

variable {α σ : Type} [Arith α]

def GatewaySample.ended (sample : GatewaySample α) : Time α :=
  sample.timestamp + sample.time

def Context.samples {α : Type} (ctx : Context α) : List (GatewaySample α) :=
  ctx.metrics.current.samples

theorem EpisodeMetrics.recordCompletion_samples (metrics : EpisodeMetrics α)
    (task : Task α) :
    (metrics.recordCompletion task).samples = metrics.samples := by
  unfold recordCompletion
  split <;> rfl

@[simp] theorem Context.releaseFinished_samples (ctx : Context α)
    (now : Time α) : (ctx.releaseFinished now).samples = ctx.samples :=
  releaseFinished_leaves EpisodeMetrics.recordCompletion_samples ctx now

theorem Context.sampled_samples (ctx : Context α) (now : Time α)
    (answer : Answer α) :
    (ctx.sampled now answer).samples =
      ctx.samples ++ [⟨now, answer.cost, answer.cpuPercent⟩] := by
  rw [← ctx.releaseFinished_samples now]
  rfl

/-- Every decision leaves one sample of its time and its cost. -/
theorem Strategy.Consults.samples {policy : Policy (StateM σ) α}
    {strategy next : Strategy α} {pending : List TaskId}
    {ctx after : Context α} {now : Time α} {before left : σ}
    {decision : Option (Decision α)}
    (hconsults : strategy.Consults policy pending ctx now before decision next
      after left) :
    (decision = none ∧ after.samples = ctx.samples) ∨
      ∃ taken cpuPercent, decision = some taken ∧
        after.samples = ctx.samples ++ [⟨now, taken.cost, cpuPercent⟩] := by
  cases hconsults with
  | silent hoffers => exact Or.inl ⟨rfl, ctx.releaseFinished_samples now⟩
  | @full answer _ hasked hfull =>
      exact Or.inr ⟨_, answer.cpuPercent, rfl, ctx.sampled_samples now answer⟩
  | @crowded answer _ _ _ _ _ hasked hnames hbusy hnone =>
      exact Or.inr ⟨_, answer.cpuPercent, rfl, ctx.sampled_samples now answer⟩
  | @rejected answer _ _ _ _ _ hasked hnames hbusy hidle =>
      exact Or.inr ⟨_, answer.cpuPercent, rfl, ctx.sampled_samples now answer⟩
  | @dropped answer _ _ _ _ _ _ hasked hnames hidle hmissed hfeedback =>
      exact Or.inr ⟨_, answer.cpuPercent, rfl, ctx.sampled_samples now answer⟩
  | @assigned answer _ _ _ _ _ _ hasked hnames hidle hmeets hfeedback =>
      exact Or.inr ⟨_, answer.cpuPercent, rfl, ctx.sampled_samples now answer⟩

theorem Simulation.heard_samples (sim : Simulation α) (target : Target)
    (message : Message) :
    (sim.heard target message).context.samples = sim.context.samples :=
  congrArg (·.current.samples) (sim.heard_metrics target message)

namespace Moment

variable {policy : Policy (StateM σ) α} {ending : EndCondition α}
  {before after first last : Moment σ α} {turn : Turn α}
  {turns : List (Turn α)}

theorem Step.costs (hstep : before.Step policy ending turn after) :
    after.sim.context.samples.map GatewaySample.time =
      before.sim.context.samples.map GatewaySample.time ++
        (turn.decision?.map Decision.cost).toList := by
  cases hstep with
  | @quiet event popped hnext hquiet =>
      rw [popped.heard_samples, (Simulation.next?_eq_some hnext).2.1]
      exact (List.append_nil _).symm
  | @consulted event popped sim decision strategy ctx service hnext hprompts
      hsim hdecide =>
      have hheard : sim.context.samples = before.sim.context.samples := by
        rw [hsim, popped.heard_samples, (Simulation.next?_eq_some hnext).2.1]
      rw [Simulation.settled_context]
      obtain ⟨rfl, hsamples⟩ | ⟨taken, cpuPercent, rfl, hsamples⟩ :=
        (Strategy.decide_ok hdecide).samples
      · rw [hsamples, hheard]
        exact (List.append_nil _).symm
      · rw [hsamples, hheard, List.map_append]
        rfl

/-- The sampled times of a run are the costs of its decisions. -/
theorem Run.costs (hrun : Run policy ending first turns last) :
    last.sim.context.samples.map GatewaySample.time =
      first.sim.context.samples.map GatewaySample.time ++
        turns.filterMap fun turn => turn.decision?.map Decision.cost := by
  induction hrun with
  | done now => simp
  | @turn _ _ _ turn _ hstep _ ih =>
      rw [ih, hstep.costs, List.append_assoc, List.filterMap_cons]
      cases turn.decision?.map Decision.cost <;> rfl

end Moment
end

theorem EventQueue.now_le_delivery {queue : EventQueue ℚ} (time : Time ℚ) :
    queue.now.value ≤ (queue.delivery time).value :=
  Time.isBy_iff_le.mp (queue.isBy_delivery time)

variable {σ : Type}

/-- One decision is over before another one is asked for. -/
def GatewaySample.Precedes (one other : GatewaySample ℚ) : Prop :=
  one.ended.value ≤ other.timestamp.value

namespace Simulation

/-- The windows of the decisions lie one after the other, and only the last one
may still be open: a wake is due at its end or later. -/
structure Spaced (sim : Simulation ℚ) : Prop where
  started : 0 ≤ sim.queue.now.value
  begun : ∀ sample ∈ sim.context.samples, 0 ≤ sample.timestamp.value
  apart : sim.context.samples.Pairwise GatewaySample.Precedes
  closed : sim.gateway.state = .idle → ∀ sample ∈ sim.context.samples,
    sample.ended.value ≤ sim.queue.now.value
  awaited : ∀ event ∈ sim.queue.future, event.message = .gatewayWake →
    ∀ sample ∈ sim.context.samples, sample.ended.value ≤ event.time.value

namespace Spaced

variable {sim popped : Simulation ℚ} {ending : EndCondition ℚ}
  {event : Event ℚ}

theorem next (hspaced : sim.Spaced) (hordered : sim.queue.Ordered)
    (hnext : sim.next? ending = some (event, popped)) : popped.Spaced := by
  obtain ⟨hgateway, hcontext, hpop⟩ := next?_eq_some hnext
  have hclock : sim.queue.now.value ≤ popped.queue.now.value :=
    Time.isBy_iff_le.mp (hordered.pop hpop).2
  constructor
  case started => exact hspaced.started.trans hclock
  case begun =>
    rw [hcontext]
    exact hspaced.begun
  case apart =>
    rw [hcontext]
    exact hspaced.apart
  case closed =>
    rw [hgateway, hcontext]
    intro hidle sample hsample
    exact (hspaced.closed hidle sample hsample).trans hclock
  case awaited =>
    rw [hcontext]
    intro other hother
    exact hspaced.awaited other ((mem_future_next hnext).mpr (Or.inr hother))

theorem schedule (hspaced : sim.Spaced) (delay : Span ℚ) (target : Target)
    {message : Message} (hother : message ≠ .gatewayWake) :
    ({ sim with queue := sim.queue.schedule delay target message } :
      Simulation ℚ).Spaced := by
  refine ⟨hspaced.started, hspaced.begun, hspaced.apart, hspaced.closed, ?_⟩
  intro event hevent hwake
  rcases EventQueue.mem_place.mp hevent with rfl | hold
  · exact (hother hwake).elim
  · exact hspaced.awaited event hold hwake

/-- Only a wake makes the gateway idle, and by then the last window is over. -/
theorem hear (hspaced : sim.Spaced) (hordered : sim.queue.Ordered)
    (hnext : sim.next? ending = some (event, popped)) {message : Message}
    (hmessage : event.message = message) {after : Simulation ℚ}
    {prompted : Bool} (hears : popped.Hears message after prompted) :
    after.Spaced := by
  have hpopped := hspaced.next hordered hnext
  obtain ⟨started, begun, apart, closed, awaited⟩ := hpopped
  cases hears with
  | arrival id => exact ⟨started, begun, apart, closed, awaited⟩
  | wake =>
      refine ⟨started, begun, apart, ?_, awaited⟩
      intro _ sample hsample
      obtain ⟨_, hcontext, _⟩ := next?_eq_some hnext
      have hnow := now_next hnext
      change sample ∈ popped.context.samples at hsample
      rw [hcontext] at hsample
      have hended := hspaced.awaited event
        ((mem_future_next hnext).mpr (Or.inl rfl)) hmessage sample hsample
      rwa [← hnow] at hended
  | due hstate => exact ⟨started, begun, apart, closed, awaited⟩
  | overdue hstate => exact ⟨started, begun, apart, closed, awaited⟩
  | submission id node delay =>
      exact schedule ⟨started, begun, apart, closed, awaited⟩ delay _ (by simp)
  | lost id node => exact ⟨started, begun, apart, closed, awaited⟩
  | completion id node hstate =>
      have hnoted : ({ popped with
          context := popped.context.finished id node popped.queue.now } :
            Simulation ℚ).Spaced := ⟨started, begun, apart, closed, awaited⟩
      exact hnoted.schedule Span.zero .gateway (by simp)
  | interruption id node hstate =>
      exact ⟨started, begun, apart, closed, awaited⟩

end Spaced

/-- The wake of a decision comes when its window is over. -/
theorem wake_of_settled {sim : Simulation ℚ} {taken : Decision ℚ}
    {strategy : Strategy ℚ} {ctx : Context ℚ} {event : Event ℚ}
    (hevent : event ∈ (sim.settled (some taken) strategy ctx).queue.future)
    (hwake : event.message = .gatewayWake) :
    event ∈ sim.queue.future ∨ sim.queue.now.value ≤ event.time.value ∧
      (sim.queue.now + taken.cost).value ≤ event.time.value := by
  obtain ⟨outcome, cost⟩ := taken
  have hplaced : ∀ queue : EventQueue ℚ, queue.now = sim.queue.now →
      event ∈ (queue.schedule cost .gateway .gatewayWake).future →
        event ∈ queue.future ∨ sim.queue.now.value ≤ event.time.value ∧
          (sim.queue.now + cost).value ≤ event.time.value := by
    intro queue hnow hscheduled
    rw [← hnow]
    rcases EventQueue.mem_place.mp hscheduled with rfl | hold
    · exact Or.inr ⟨EventQueue.now_le_delivery _, EventQueue.delivery_le _⟩
    · exact Or.inl hold
  cases outcome with
  | assigned id place transfer =>
      simp only [settled, enact, dispatch] at hevent
      split at hevent
      next =>
        rcases hplaced (sim.queue.schedule (cost + transfer) _ _) rfl hevent
          with hold | hlate
        · rcases EventQueue.mem_place.mp hold with rfl | hkept
          · cases hwake
          · exact Or.inl hkept
        · exact Or.inr hlate
      next => exact hplaced _ rfl hevent
  | dropped id => exact hplaced _ rfl hevent
  | rejected place => exact hplaced _ rfl hevent
  | noCapacity => exact hplaced _ rfl hevent

/-- An idle gateway has no wake to come, so the window that it opens is the last
one. -/
theorem Spaced.settle {sim : Simulation ℚ} {policy : Policy (StateM σ) ℚ}
    {decision : Option (Decision ℚ)} {strategy : Strategy ℚ}
    {ctx : Context ℚ} {before after : σ} (hspaced : sim.Spaced)
    (hwatched : sim.Watched) (hidle : sim.gateway.state = .idle)
    (hconsults : sim.gateway.strategy.Consults policy sim.gateway.pending
      sim.context sim.queue.now before decision strategy ctx after) :
    (sim.settled decision strategy ctx).Spaced := by
  have hclosed := hspaced.closed hidle
  obtain ⟨rfl, hsamples⟩ | ⟨taken, cpuPercent, rfl, hsamples⟩ :=
    hconsults.samples
  · refine ⟨hspaced.started, ?_, ?_, fun _ => ?_, ?_⟩ <;>
      rw [settled_context, hsamples]
    · exact hspaced.begun
    · exact hspaced.apart
    · exact hclosed
    · exact hspaced.awaited
  -- a wake to come would be counted by a gateway that is idle
  · have hnone : ∀ event ∈ sim.queue.future,
        event.message ≠ .gatewayWake := by
      intro event hevent hwake
      rw [Watched, hidle, if_neg (by simp), List.count_eq_zero] at hwatched
      exact hwatched (List.mem_map.mpr ⟨event, hevent, hwake⟩)
    constructor
    case started =>
      rw [settled_now]
      exact hspaced.started
    case begun =>
      rw [settled_context, hsamples]
      intro sample hsample
      rcases List.mem_append.mp hsample with hold | hnew
      · exact hspaced.begun sample hold
      · obtain rfl := List.mem_singleton.mp hnew
        exact hspaced.started
    case apart =>
      rw [settled_context, hsamples]
      refine List.pairwise_append.mpr
        ⟨hspaced.apart, List.pairwise_singleton _ _, ?_⟩
      intro sample hsample other hother
      obtain rfl := List.mem_singleton.mp hother
      exact hclosed sample hsample
    case closed =>
      intro hstate
      cases hstate
    case awaited =>
      rw [settled_context, hsamples]
      intro event hevent hwake sample hsample
      rcases wake_of_settled hevent hwake with hold | hlate
      · exact (hnone event hold hwake).elim
      · rcases List.mem_append.mp hsample with hold | hnew
        · exact (hclosed sample hold).trans hlate.1
        · obtain rfl := List.mem_singleton.mp hnew
          exact hlate.2

end Simulation

namespace Moment

variable {policy : Policy (StateM σ) ℚ} {ending : EndCondition ℚ}

theorem Step.spaced {before after : Moment σ ℚ} {turn : Turn ℚ}
    (hstep : before.Step policy ending turn after)
    (htuned : before.sim.Tuned) (hordered : before.sim.queue.Ordered)
    (hspaced : before.sim.Spaced) : after.sim.Spaced := by
  have hboth := hstep.preserves fun sim => sim.Tuned ∧ sim.Spaced
  refine (hboth ?_ ?_).2
  · intro event popped hnext
    exact ⟨htuned.hear hnext,
      hspaced.hear hordered hnext rfl (htuned.hears hnext)⟩
  · rintro sim decision strategy ctx service ⟨hheard, hapart⟩ hidle hconsults
    exact ⟨hheard.settle hidle decision strategy ctx,
      hapart.settle hheard.watched hidle hconsults⟩

/-- In a run of which no sample takes back time, no decision does. -/
theorem Run.physical_of_samples {first last : Moment σ ℚ}
    {turns : List (Turn ℚ)} (hrun : Run policy ending first turns last)
    (hcosts : ∀ sample ∈ last.sim.context.samples, 0 ≤ sample.time.value) :
    ∀ turn ∈ turns, turn.Physical := by
  intro turn hturn taken htaken
  have hcost : taken.cost ∈
      last.sim.context.samples.map GatewaySample.time := by
    rw [hrun.costs, List.mem_append]
    refine Or.inr (List.mem_filterMap.mpr ⟨turn, hturn, ?_⟩)
    rw [htaken, Option.map_some]
  obtain ⟨sample, hsample, htime⟩ := List.mem_map.mp hcost
  rw [← htime]
  exact hcosts sample hsample

theorem start_spaced (gateway : Gateway ℚ) (ctx : Context ℚ) (episode : Nat)
    (dataset : Dataset ℚ) (service : σ) :
    (start gateway ctx episode dataset service).sim.Spaced := by
  have hnone : (start gateway ctx episode dataset
      service).sim.context.samples = [] := rfl
  have hzero : (start gateway ctx episode dataset service).sim.queue.now =
      Time.zero := Episode.arrivals_now dataset.tasks
  constructor
  case started =>
    rw [hzero]
    exact le_refl _
  case begun => simp [hnone]
  case apart => simp [hnone]
  case closed => simp [hnone]
  case awaited => simp [hnone]

theorem Run.spaced {gateway : Gateway ℚ} {ctx : Context ℚ} {episode : Nat}
    {dataset : Dataset ℚ} {service : σ} {turns : List (Turn ℚ)}
    {last : Moment σ ℚ}
    (hrun : Run policy ending (start gateway ctx episode dataset service)
      turns last) : last.sim.Spaced := by
  have hkept : last.sim.Tuned ∧ last.sim.queue.Ordered ∧ last.sim.Spaced := by
    apply hrun.invariant
    · rintro before turn after ⟨htuned, hordered, hspaced⟩ hstep
      exact ⟨hstep.tuned htuned, (hstep.clock hordered).1,
        hstep.spaced htuned hordered hspaced⟩
    · exact ⟨start_tuned gateway ctx episode dataset service,
        Simulation.arrivals_ordered dataset.tasks,
        start_spaced gateway ctx episode dataset service⟩
  exact hkept.2.2

/-- When no event is left, every window is over. -/
theorem Run.closed_of_drained {gateway : Gateway ℚ} {ctx : Context ℚ}
    {episode : Nat} {dataset : Dataset ℚ} {service : σ}
    {turns : List (Turn ℚ)} {last : Moment σ ℚ}
    (hrun : Run policy ending (start gateway ctx episode dataset service)
      turns last) (hdrained : last.sim.queue.future = []) :
    ∀ sample ∈ last.sim.context.samples,
      sample.ended.value ≤ last.sim.queue.now.value := by
  have htuned := hrun.tuned (start_tuned gateway ctx episode dataset service)
  have hwatched := htuned.watched
  rw [Simulation.Watched, Simulation.messages_of_drained hdrained,
    List.count_nil] at hwatched
  apply hrun.spaced.closed
  cases hstate : last.sim.gateway.state with
  | idle => rfl
  | deciding =>
      rw [hstate] at hwatched
      cases hwatched

end Moment
end FogDispatch
