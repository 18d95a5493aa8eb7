import FogDispatch.Proofs.Attention

/-!
# The work of an episode

Every event and every decision is charged in advance: an arrival pays for the
waiting of its task, a waiting task for one placement, a submission for one
completion, and a completion for one more look at the queue.  With `fee` the
price of delivering an event, the load below is what the state has still to
pay.  Delivering an event costs the fee and taking a decision costs one, and
only a rejected decision is paid for by nobody.  The fee zero therefore counts
decisions, and the fee one counts events.
-/

namespace FogDispatch

variable {α σ : Type}

/-- What a message to come has to pay. -/
def Message.load (fee : Nat) : Message → Nat
  | .taskArrival _ => 3 + 4 * fee
  | .taskSubmit _ _ => 1 + 3 * fee
  | .taskFinished _ _ => 1 + 2 * fee
  | .decisionDue => 1 + fee
  | .gatewayWake => fee

namespace EventQueue

def load (fee : Nat) (queue : EventQueue α) : Nat :=
  (queue.messages.map (Message.load fee)).sum

theorem load_push [Arith α] (fee : Nat) (queue : EventQueue α) (time : Time α)
    (target : Target) (message : Message) :
    (queue.push time target message).load fee =
      queue.load fee + message.load fee := by
  have hperm := (queue.push_messages_perm time target message).map
    (Message.load fee)
  rw [load, load, hperm.sum_eq, List.map_cons, List.sum_cons, Nat.add_comm]

theorem load_schedule [Arith α] (fee : Nat) (queue : EventQueue α)
    (delay : Span α) (target : Target) (message : Message) :
    (queue.schedule delay target message).load fee =
      queue.load fee + message.load fee :=
  load_push fee queue _ target message

end EventQueue

namespace Gateway

/-- Whether the gateway is bound to look at its queue again. -/
def unrest (gateway : Gateway α) : Nat :=
  gateway.recheck.toNat +
    (gateway.state == .deciding && !gateway.allNodesBusy).toNat

theorem unrest_recheck (gateway : Gateway α) :
    ({ gateway with recheck := true } : Gateway α).unrest ≤
      gateway.unrest + 1 := by
  simp only [unrest, Bool.toNat_true]
  omega

/-- A wake that prompts a consultation was bound to do so. -/
theorem unrest_wake (gateway : Gateway α)
    (hstate : gateway.state = .deciding) :
    ({ gateway with state := .idle, recheck := false } : Gateway α).unrest +
      (!gateway.allNodesBusy || gateway.recheck).toNat ≤ gateway.unrest := by
  have hidle : (GatewayState.idle == GatewayState.deciding) = false := rfl
  simp only [unrest, hstate, hidle, beq_self_eq_true, Bool.true_and,
    Bool.false_and, Bool.toNat_false]
  cases gateway.allNodesBusy <;> cases gateway.recheck <;> decide

end Gateway

namespace Simulation

def load (fee : Nat) (sim : Simulation α) : Nat :=
  sim.queue.load fee + (2 + 3 * fee) * sim.gateway.pending.length +
    sim.gateway.unrest

variable [Arith α] {sim popped : Simulation α} {ending : EndCondition α}
  {event : Event α}

theorem load_next (fee : Nat)
    (hnext : sim.next? ending = some (event, popped)) :
    sim.load fee = popped.load fee + event.message.load fee := by
  obtain ⟨hgateway, _, hpop⟩ := next?_eq_some hnext
  have hqueue : sim.queue.load fee =
      event.message.load fee + popped.queue.load fee := by
    rw [EventQueue.load, EventQueue.pop?_messages hpop, List.map_cons,
      List.sum_cons]
    rfl
  rw [load, load, hgateway]
  omega

/-- A message pays the fee, and one more if the strategy is consulted. -/
theorem Watched.hear_load (fee : Nat) (hwatched : sim.Watched)
    (hnext : sim.next? ending = some (event, popped)) {message : Message}
    (hmessage : event.message = message) {after : Simulation α}
    {prompted : Bool} (hears : popped.Hears message after prompted) :
    after.load fee + fee + prompted.toNat ≤ sim.load fee := by
  have hload := load_next fee hnext
  rw [hmessage] at hload
  cases hears with
  | arrival id =>
      have hprompted := Bool.toNat_le (popped.gateway.state == .idle &&
        popped.context.topology.anyCandidateIdle)
      have hwait : (2 + 3 * fee) * (popped.gateway.pending ++ [id]).length =
          (2 + 3 * fee) * popped.gateway.pending.length + (2 + 3 * fee) := by
        rw [List.length_append, List.length_singleton, Nat.mul_succ]
      have hafter : (popped.modifyGateway fun g =>
          { g with pending := g.pending ++ [id] }).load fee =
            popped.load fee + (2 + 3 * fee) := by
        change popped.queue.load fee +
          (2 + 3 * fee) * (popped.gateway.pending ++ [id]).length +
            popped.gateway.unrest = _
        rw [hwait, load]
        omega
      rw [hafter, hload]
      simp only [Message.load]
      omega
  | wake =>
      obtain ⟨hgateway, _, _⟩ := next?_eq_some hnext
      obtain ⟨hstate, _⟩ := hwatched.next_deciding hnext hmessage
      have hunrest := popped.gateway.unrest_wake (by rw [hgateway, hstate])
      have hafter : (popped.modifyGateway fun g =>
          { g with state := .idle, recheck := false }).load fee =
            popped.queue.load fee +
              (2 + 3 * fee) * popped.gateway.pending.length +
                ({ popped.gateway with
                    state := .idle
                    recheck := false } : Gateway α).unrest := rfl
      rw [hafter, hload, load]
      simp only [Message.load]
      omega
  | due hstate =>
      simp only [Message.load] at hload
      simp only [Bool.toNat_true]
      omega
  | overdue hstate =>
      have hunrest := popped.gateway.unrest_recheck
      have hafter : (popped.modifyGateway fun g =>
          { g with recheck := true }).load fee ≤ popped.load fee + 1 := by
        simp only [load, modifyGateway]
        omega
      simp only [Message.load] at hload
      simp only [Bool.toNat_false]
      omega
  | submission id node delay =>
      simp only [Message.load] at hload
      simp only [load] at hload
      simp only [load, EventQueue.load_schedule, Message.load,
        Bool.toNat_false]
      omega
  | lost id node =>
      simp only [Message.load] at hload
      simp only [Bool.toNat_false]
      omega
  | completion id node hstate =>
      simp only [Message.load] at hload
      simp only [load] at hload
      simp only [load, EventQueue.load_schedule, Message.load,
        Bool.toNat_false]
      omega
  | interruption id node hstate =>
      have hunrest := popped.gateway.unrest_recheck
      simp only [Message.load] at hload
      simp only [load] at hload
      simp only [load, Bool.toNat_false]
      omega

/-! ## Decisions -/

theorem load_filter (wait : Nat) {ids : List TaskId} {id : TaskId}
    (hid : id ∈ ids) :
    wait * (ids.filter (· != id)).length + wait ≤ wait * ids.length := by
  have hlt : (ids.filter (· != id)).length < ids.length := by
    rw [List.length_filter_lt_length_iff_exists]
    exact ⟨id, hid, by simp⟩
  calc
    wait * (ids.filter (· != id)).length + wait =
        wait * ((ids.filter (· != id)).length + 1) := (Nat.mul_succ ..).symm
    _ ≤ wait * ids.length := Nat.mul_le_mul_left wait hlt

/-- A decision schedules the next wake.  What else it sends and how many tasks
it leaves waiting depends on its outcome. -/
theorem load_settled (fee : Nat) (sim : Simulation α) (decision : Decision α)
    (strategy : Strategy α) (ctx : Context α) {sent : Nat}
    (hsent : ((sim.settled none strategy ctx).dispatch decision).load fee ≤
      sim.queue.load fee + sent) :
    (sim.settled (some decision) strategy ctx).load fee ≤
      sim.queue.load fee + sent + fee + (2 + 3 * fee) *
          (sim.settled (some decision) strategy ctx).gateway.pending.length +
        (!decision.isNoCapacity).toNat := by
  have hqueue : (sim.settled (some decision) strategy ctx).queue.load fee =
      ((sim.settled none strategy ctx).dispatch decision).load fee + fee :=
    EventQueue.load_schedule fee _ _ _ _
  have hunrest : (sim.settled (some decision) strategy ctx).gateway.unrest =
      (!decision.isNoCapacity).toNat := by
    simp [settled, enact, Gateway.unrest]
  rw [load, hqueue, hunrest]
  omega

theorem load_kept (fee : Nat) (sim : Simulation α) {outcome : Outcome α}
    {cost : Span α} (hkept : (⟨outcome, cost⟩ : Decision α).task? = none)
    (strategy : Strategy α) (ctx : Context α) :
    (sim.settled (some ⟨outcome, cost⟩) strategy ctx).load fee ≤
      sim.load fee + fee +
        (!(⟨outcome, cost⟩ : Decision α).isNoCapacity).toNat := by
  have hsent : ((sim.settled none strategy ctx).dispatch
      ⟨outcome, cost⟩).load fee ≤ sim.queue.load fee + 0 := by
    cases outcome with
    | assigned task node transfer => cases hkept
    | dropped task => cases hkept
    | rejected node => exact Nat.le_refl _
    | noCapacity => exact Nat.le_refl _
  have hpending : (sim.settled (some ⟨outcome, cost⟩) strategy
      ctx).gateway.pending = sim.gateway.pending := by
    simp only [settled, enact, hkept]
  have hload := load_settled fee sim ⟨outcome, cost⟩ strategy ctx hsent
  rw [hpending] at hload
  rw [load] at hload ⊢
  rw [load]
  omega

theorem load_removed (fee : Nat) (sim : Simulation α) {outcome : Outcome α}
    {cost : Span α} {id : TaskId}
    (hremoved : (⟨outcome, cost⟩ : Decision α).task? = some id)
    (hid : id ∈ sim.gateway.pending) (strategy : Strategy α)
    (ctx : Context α) :
    (sim.settled (some ⟨outcome, cost⟩) strategy ctx).load fee ≤
      sim.load fee + fee := by
  have hsent : ((sim.settled none strategy ctx).dispatch
      ⟨outcome, cost⟩).load fee ≤ sim.queue.load fee + (1 + 3 * fee) := by
    cases outcome with
    | assigned task node transfer =>
        simp only [dispatch]
        split
        next =>
          rw [EventQueue.load_schedule, Message.load]
          exact Nat.le_refl _
        next => exact Nat.le_add_right _ _
    | dropped task => exact Nat.le_add_right _ _
    | rejected node => cases hremoved
    | noCapacity => cases hremoved
  have hpending : (sim.settled (some ⟨outcome, cost⟩) strategy
      ctx).gateway.pending = sim.gateway.pending.filter (· != id) := by
    simp only [settled, enact, hremoved]
  have hfilter := load_filter (2 + 3 * fee) hid
  have hflag := Bool.toNat_le (!(⟨outcome, cost⟩ : Decision α).isNoCapacity)
  have hload := load_settled fee sim ⟨outcome, cost⟩ strategy ctx hsent
  rw [hpending] at hload
  rw [load] at hload ⊢
  rw [load]
  omega

end Simulation

namespace Decision

def isRejected (decision : Decision α) : Bool :=
  match decision.outcome with
  | .rejected _ => true
  | _ => false

/-- What a decision costs beyond what its task has paid. -/
def charge (fee : Nat) (decision : Decision α) : Nat :=
  fee + decision.isRejected.toNat

end Decision

namespace Simulation

variable [Arith α] {sim : Simulation α}

/-- A consultation of an idle gateway costs a fee for the wake that it
schedules, and one more if the decision is rejected. -/
theorem consult_load {policy : Policy (StateM σ) α}
    {decision : Option (Decision α)} {strategy : Strategy α}
    {ctx : Context α} {before after : σ} (fee : Nat)
    (hnumbered : ∀ id task, sim.context.task? id = some task → task.id = id)
    (hconsults : sim.gateway.strategy.Consults policy sim.gateway.pending
      sim.context sim.queue.now before decision strategy ctx after) :
    (sim.settled decision strategy ctx).load fee ≤
      sim.load fee + (decision.map (Decision.charge fee)).getD 0 := by
  have hwaits : ∀ {answer id place task node},
      sim.gateway.strategy.Names sim.gateway.pending sim.context
        sim.queue.now answer id place task node →
          task.id ∈ sim.gateway.pending := by
    intro answer id place task node hnames
    have htask : sim.context.task? id = some task := by
      simpa using hnames.task_eq
    rw [hnumbered id task htask]
    exact hnames.mem_pending
  cases hconsults with
  | silent hoffers => exact Nat.le_refl _
  | full hasked hfull => exact load_kept fee sim rfl _ _
  | crowded hasked hnames hbusy hnone => exact load_kept fee sim rfl _ _
  | rejected hasked hnames hbusy hidle => exact load_kept fee sim rfl _ _
  | dropped hasked hnames hidle hmissed hfeedback =>
      exact load_removed fee sim rfl (hwaits hnames) _ _
  | assigned hasked hnames hidle hmeets hfeedback =>
      exact load_removed fee sim rfl (hwaits hnames) _ _

end Simulation
end FogDispatch
