import FogDispatch.Proofs.Workload

/-!
# Bounded work

The load of an episode with `n` tasks is `3 n` for decisions and `7 n` for
events.  Every turn pays for itself out of it, but for rejected decisions, which
are paid for from outside.  An episode against a service that causes no
rejection therefore ends after at most `7 n` events.
-/

namespace FogDispatch

variable {α σ : Type}

namespace Turn

def isRejection (turn : Turn α) : Bool :=
  turn.decision?.any Decision.isRejected

/-- What a turn pays: one for a decision, the fee without one. -/
def price (fee : Nat) (turn : Turn α) : Nat :=
  if turn.decision?.isSome then 1 else fee

end Turn

def decisions (turns : List (Turn α)) : Nat :=
  turns.countP fun turn => turn.decision?.isSome

def rejections (turns : List (Turn α)) : Nat :=
  turns.countP Turn.isRejection

theorem sum_price_zero (turns : List (Turn α)) :
    (turns.map (Turn.price 0)).sum = decisions turns := by
  induction turns with
  | nil => rfl
  | cons turn rest ih =>
      rw [List.map_cons, List.sum_cons, ih, decisions, decisions,
        List.countP_cons, Turn.price, Nat.add_comm]

theorem sum_price_one (turns : List (Turn α)) :
    (turns.map (Turn.price 1)).sum = turns.length := by
  induction turns with
  | nil => rfl
  | cons turn rest ih =>
      rw [List.map_cons, List.sum_cons, ih, List.length_cons, Turn.price,
        ite_self, Nat.add_comm]

variable [Arith α]

namespace Moment

variable {policy : Policy (StateM σ) α} {ending : EndCondition α}

/-- Every turn is paid out of the load, unless it is a rejection. -/
theorem Step.load (fee : Nat) {before after : Moment σ α} {turn : Turn α}
    (hstep : before.Step policy ending turn after)
    (hbooks : before.sim.Books) (hwatched : before.sim.Watched) :
    after.sim.load fee + turn.price fee ≤
      before.sim.load fee + turn.isRejection.toNat := by
  have hheard : ∀ {event popped},
      before.sim.next? ending = some (event, popped) →
        (popped.heard event.target event.message).load fee + fee +
          (popped.prompts event.target event.message).toNat ≤
            before.sim.load fee := by
    intro event popped hnext
    obtain ⟨haddressed, _⟩ := hbooks.ledger.addressed_next hnext
    exact hwatched.hear_load fee hnext rfl
      (Simulation.hears_of_addressed _ haddressed)
  cases hstep with
  | quiet hnext hquiet =>
      have hpaid := hheard hnext
      rw [hquiet] at hpaid
      exact hpaid
  | @consulted event popped sim decision strategy ctx service hnext hprompts
      hsim hdecide =>
      subst hsim
      have hpaid := hheard hnext
      rw [hprompts, Bool.toNat_true] at hpaid
      have hsettled := Simulation.consult_load fee
        (hbooks.hear hnext).ledger.numbered (Strategy.decide_ok hdecide)
      cases decision with
      | none =>
          have hprice : (⟨event, some none⟩ : Turn α).price fee = fee := rfl
          have hrejection : (⟨event, some none⟩ : Turn α).isRejection =
            false := rfl
          rw [Option.map_none, Option.getD_none] at hsettled
          rw [hprice, hrejection, Bool.toNat_false]
          dsimp only
          omega
      | some decision =>
          have hprice : (⟨event, some (some decision)⟩ : Turn α).price fee =
            1 := rfl
          have hrejection : (⟨event, some (some decision)⟩ :
            Turn α).isRejection = decision.isRejected := rfl
          rw [Option.map_some, Option.getD_some, Decision.charge] at hsettled
          rw [hprice, hrejection]
          dsimp only
          omega

theorem Run.load (fee : Nat) {first last : Moment σ α} {turns : List (Turn α)}
    (hrun : Run policy ending first turns last) (hbooks : first.sim.Books)
    (hwatched : first.sim.Watched) :
    last.sim.load fee + (turns.map (Turn.price fee)).sum ≤
      first.sim.load fee + rejections turns := by
  induction hrun with
  | done now => simp [rejections]
  | @turn before middle after turn turns hstep _ ih =>
      have hpaid := hstep.load fee hbooks hwatched
      have hrest := ih (hstep.books hbooks) (hstep.watched hbooks hwatched)
      have hrejections : rejections (turn :: turns) =
          rejections turns + turn.isRejection.toNat := by
        rw [rejections, rejections, List.countP_cons]
        cases turn.isRejection <;> rfl
      rw [List.map_cons, List.sum_cons, hrejections]
      omega

theorem start_load (fee : Nat) (gateway : Gateway α) (ctx : Context α)
    (episode : Nat) (dataset : Dataset α) (service : σ) :
    (start gateway ctx episode dataset service).sim.load fee =
      (3 + 4 * fee) * dataset.tasks.length := by
  have hqueue : (Episode.arrivals dataset.tasks).load fee =
      dataset.tasks.length * (3 + 4 * fee) := by
    have hperm := (Episode.arrivals_messages dataset.tasks).map
      (Message.load fee)
    rw [EventQueue.load, hperm.sum_eq, List.map_map]
    change (dataset.tasks.map fun _ => 3 + 4 * fee).sum = _
    rw [List.map_const', List.sum_replicate, smul_eq_mul]
  change (Episode.arrivals dataset.tasks).load fee + (2 + 3 * fee) * 0 + 0 = _
  rw [hqueue, Nat.mul_comm]
  rfl

/-! ## Counting events -/

theorem Step.processed {before after : Moment σ α} {turn : Turn α}
    (hstep : before.Step policy ending turn after) :
    after.sim.queue.processed = before.sim.queue.processed + 1 := by
  apply hstep.preserves fun sim =>
    sim.queue.processed = before.sim.queue.processed + 1
  · intro event popped hnext
    obtain ⟨_, _, hpop⟩ := Simulation.next?_eq_some hnext
    rw [← (EventQueue.pop?_eq_some hpop).2.2]
    apply Simulation.heard_queue_keeps fun queue =>
      queue.processed = popped.queue.processed
    · intro queue delay target message hqueue
      exact hqueue
    · rfl
  · intro sim decision strategy ctx service hheard _ _
    apply Simulation.settled_queue_keeps fun queue =>
      queue.processed = before.sim.queue.processed + 1
    · intro queue delay target message hqueue
      exact hqueue
    · exact hheard

theorem Run.processed {first last : Moment σ α} {turns : List (Turn α)}
    (hrun : Run policy ending first turns last) :
    last.sim.queue.processed = first.sim.queue.processed + turns.length := by
  induction hrun with
  | done now => rfl
  | turn hstep _ ih =>
      rw [ih, hstep.processed, List.length_cons]
      omega

theorem foldl_push_processed (tasks : List (Task α)) (queue : EventQueue α) :
    (tasks.foldl (fun queue task =>
        queue.push task.arrival .gateway (.taskArrival task.id))
      queue).processed = queue.processed := by
  induction tasks generalizing queue with
  | nil => rfl
  | cons task rest ih => exact ih _

/-- An episode that ends has delivered the events of its run, and one more if
that one ended in a fault. -/
theorem Ends.processed {last : Moment σ α}
    {result : Except Fault Unit × Simulation α} {left : σ}
    (hends : Ends policy ending last result left) :
    result.2.queue.processed = last.sim.queue.processed ∨
      ∃ event popped, last.sim.next? ending = some (event, popped) ∧
        result.2.queue.processed = last.sim.queue.processed + 1 := by
  cases hends with
  | finished hnext =>
      left
      unfold Simulation.closeClock
      split <;> rfl
  | @failed event popped final fault service hnext hdeliver =>
      right
      obtain ⟨_, _, hpop⟩ := Simulation.next?_eq_some hnext
      refine ⟨event, popped, hnext, ?_⟩
      have hkept := Simulation.deliver_queue_keeps
        (fun queue => queue.processed = popped.queue.processed)
        (fun _ _ _ _ hqueue => hqueue) rfl policy event.target event.message
        last.service
      rw [hdeliver] at hkept
      rw [← (EventQueue.pop?_eq_some hpop).2.2]
      exact hkept

/-! ## Services that cause no rejection -/

/-- Whenever the service is asked, it names no busy node while a candidate is
idle. -/
def Considerate (policy : Policy (StateM σ) α) (ending : EndCondition α)
    (first : Moment σ α) : Prop :=
  ∀ sim answer, Asks policy ending first sim answer →
    ∀ id place task node,
      sim.gateway.strategy.Names sim.gateway.pending sim.context
        sim.queue.now answer id place task node →
      node.isIdle = false → sim.context.topology.anyCandidateIdle = false

theorem Considerate.step {first next : Moment σ α} {turn : Turn α}
    (hconsiderate : Considerate policy ending first)
    (hstep : first.Step policy ending turn next) :
    Considerate policy ending next ∧ turn.isRejection = false := by
  constructor
  · intro sim answer hasks
    exact hconsiderate sim answer (hasks.turn hstep)
  · cases hstep with
    | quiet hnext hquiet => rfl
    | @consulted event popped sim decision strategy ctx service hnext
        hprompts hsim hdecide =>
        cases Strategy.decide_ok hdecide with
        | silent hoffers => rfl
        | full hasked hfull => rfl
        | crowded hasked hnames hbusy hnone => rfl
        | @rejected answer after id place task node hasked hnames hbusy
            hidle =>
            have hnone := hconsiderate sim answer
              ⟨[], first, event, popped, _, .done first, hnext, hprompts,
                hsim, hasked⟩ id place task node hnames hbusy
            rw [Context.sampled_topology, hnone] at hidle
            cases hidle
        | dropped hasked hnames hidle hmissed hfeedback => rfl
        | assigned hasked hnames hidle hmeets hfeedback => rfl

theorem Considerate.rejections_eq_zero {first last : Moment σ α}
    {turns : List (Turn α)} (hconsiderate : Considerate policy ending first)
    (hrun : Run policy ending first turns last) : rejections turns = 0 := by
  induction hrun with
  | done now => rfl
  | turn hstep _ ih =>
      obtain ⟨hrest, hturn⟩ := hconsiderate.step hstep
      rw [rejections, List.countP_cons, if_neg (by simp [hturn]),
        Nat.add_zero]
      exact ih hrest

/-- With a single candidate no service can name a busy node while another one
is idle. -/
theorem considerate_of_single {gateway : Gateway α} {ctx : Context α}
    {episode : Nat} {dataset : Dataset α} {service : σ}
    (hdataset : dataset.Fresh) (htopology : ctx.topology.Built)
    (hsingle : ctx.topology.candidates.length = 1) :
    Considerate policy ending
      (start gateway ctx episode dataset service) := by
  rintro sim answer ⟨turns, now, event, popped, left, hrun, hnext, _, rfl, _⟩
    id place task node hnames hbusy
  have hbooks := (Run.books hdataset htopology hrun).hear hnext
  obtain ⟨_, _, hcandidate⟩ :=
    hnames.node_candidate hbooks.occupancy.numbered
  have hreset : (popped.heard event.target
      event.message).context.topology.reset = ctx.topology.reset.reset := by
    rw [Simulation.heard_topology_reset hnext]
    exact hrun.topology_reset
  have hlength := Topology.length_candidates_of_reset hreset
  rw [Topology.candidates_reset, List.length_map, hsingle] at hlength
  obtain ⟨only, honly⟩ := List.length_eq_one_iff.mp hlength
  rw [honly, List.mem_singleton] at hcandidate
  rw [Topology.anyCandidateIdle, honly, ← hcandidate]
  simp [hbusy]

/-- What a run over a number of tasks may have cost so far.  A consultation and
an event that end in a fault are within the bounds, too. -/
structure WithinBounds (policy : Policy (StateM σ) α)
    (ending : EndCondition α) (tasks : Nat) (turns : List (Turn α))
    (now : Moment σ α) : Prop where
  decisions : decisions turns ≤ 3 * tasks + rejections turns
  consulted : ∀ event popped, now.sim.next? ending = some (event, popped) →
    popped.prompts event.target event.message = true →
      FogDispatch.decisions turns + 1 ≤ 3 * tasks + rejections turns
  processed : now.sim.queue.processed = turns.length
  events : turns.length ≤ 7 * tasks + rejections turns
  ended : ∀ result left, Ends policy ending now result left →
    result.2.queue.processed ≤ 7 * tasks + rejections turns

theorem Run.withinBounds {gateway : Gateway α} {ctx : Context α}
    {episode : Nat} {dataset : Dataset α} {service : σ}
    {turns : List (Turn α)} {now : Moment σ α} (hdataset : dataset.Fresh)
    (htopology : ctx.topology.Built)
    (hrun : Run policy ending (start gateway ctx episode dataset service)
      turns now) :
    WithinBounds policy ending dataset.tasks.length turns now := by
  have hbooks : (start gateway ctx episode dataset service).sim.Books :=
    start_books hdataset htopology
  have hwatched := start_watched gateway ctx episode dataset service
  have hdecisions := hrun.load 0 hbooks hwatched
  have hevents := hrun.load 1 hbooks hwatched
  rw [start_load, sum_price_zero] at hdecisions
  rw [start_load, sum_price_one] at hevents
  have hprocessed : now.sim.queue.processed = turns.length := by
    have hstart : (Episode.arrivals dataset.tasks).processed = 0 :=
      foldl_push_processed dataset.tasks EventQueue.empty
    rw [hrun.processed]
    change (Episode.arrivals dataset.tasks).processed + turns.length = _
    rw [hstart, Nat.zero_add]
  constructor
  case decisions => omega
  case consulted =>
    intro event popped hnext hprompts
    obtain ⟨haddressed, _⟩ :=
      (Run.books hdataset htopology hrun).ledger.addressed_next hnext
    have hpaid := (Run.watched hdataset htopology hrun).hear_load 0 hnext rfl
      (Simulation.hears_of_addressed _ haddressed)
    rw [hprompts, Bool.toNat_true] at hpaid
    omega
  case processed => exact hprocessed
  case events => omega
  case ended =>
    intro result left hends
    rcases hends.processed with hsame | ⟨event, popped, hnext, hone⟩
    · omega
    · have hload := Simulation.load_next 1 hnext
      have hmessage : 1 ≤ event.message.load 1 := by
        cases event.message <;> simp [Message.load]
      omega

/-- An episode with `n` tasks takes at most `3 n` decisions and `7 n` events
beyond its rejections, and it ends on its own if the service causes none. -/
theorem work_bounded {gateway : Gateway α} {ctx : Context α} {episode : Nat}
    {dataset : Dataset α} {service : σ} (hdataset : dataset.Fresh)
    (htopology : ctx.topology.Built) :
    (∀ turns now,
      Run policy ending (start gateway ctx episode dataset service) turns
        now → WithinBounds policy ending dataset.tasks.length turns now) ∧
    (Considerate policy ending (start gateway ctx episode dataset service) →
      ∀ allotted, 7 * dataset.tasks.length < allotted →
      ∃ turns last result left,
        Run policy ending (start gateway ctx episode dataset service) turns
          last ∧
        Ends policy ending last result left ∧
        ((Episode.initial gateway.reset (ctx.startEpisode episode
          dataset.jobs dataset.tasks)).runEvents policy ending allotted).run
            service = (result, left)) := by
  constructor
  · intro turns now hrun
    exact Run.withinBounds hdataset htopology hrun
  · intro hconsiderate allotted hallotted
    obtain ⟨turns, last, hrun, hend⟩ := runEvents_run policy ending
      allotted (start gateway ctx episode dataset service)
    have hevents := (Run.withinBounds hdataset htopology hrun).events
    rw [hconsiderate.rejections_eq_zero hrun] at hevents
    rcases hend with ⟨hlength, _⟩ | ⟨_, result, left, hends, hresult⟩
    · omega
    · exact ⟨turns, last, result, left, hrun, hends, hresult⟩

/-- The bounds for the two tasks of the small episode, which ends on its own. -/
theorem sample_work_bounded :
    (∃ turns now, turns.length = 4 ∧
      Run Sample.service .drained Sample.first turns now ∧
      WithinBounds Sample.service .drained 2 turns now) ∧
    Considerate Sample.service .drained Sample.first ∧ 14 < 15 ∧
    ∃ turns last result left,
      Run Sample.service .drained Sample.first turns last ∧
      Ends Sample.service .drained last result left ∧
      (Sample.first.sim.runEvents Sample.service .drained 15).run () =
        (result, left) := by
  have hconsiderate : Considerate Sample.service .drained Sample.first :=
    considerate_of_single Sample.dataset_fresh Sample.topology_built (by rfl)
  have hreached :
      (Sample.first.after? Sample.service .drained 4).isSome = true := by
    decide +kernel
  have hbounded : (∀ turns now,
      Run Sample.service .drained Sample.first turns now →
        WithinBounds Sample.service .drained 2 turns now) ∧ _ :=
    work_bounded Sample.dataset_fresh Sample.topology_built
  obtain ⟨now, hafter⟩ := Option.isSome_iff_exists.mp hreached
  obtain ⟨turns, hlength, hrun⟩ := run_of_after? hafter
  exact ⟨⟨turns, now, hlength, hrun, hbounded.1 turns now hrun⟩,
    hconsiderate, by decide, hbounded.2 hconsiderate 15 (by decide)⟩

end Moment
end FogDispatch
