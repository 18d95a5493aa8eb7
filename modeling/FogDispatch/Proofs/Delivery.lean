import FogDispatch.Episode
import FogDispatch.Proofs.Consultation
import FogDispatch.Proofs.Queue

/-!
# Deliveries

Every delivery first takes note of its message and then consults the strategy
or does not.  What is noted depends on the message alone, and what follows a
consultation on its result alone, so the two halves are described apart.
-/

namespace FogDispatch

variable {α σ : Type} [Arith α]

namespace Simulation

/-- The state once a message is taken note of, before any decision. -/
def heard (sim : Simulation α) (target : Target) (message : Message) :
    Simulation α :=
  match target, message with
  | .datacenter _, message => sim.runOnDatacenter message
  | .gateway, .taskArrival task =>
      sim.modifyGateway fun g => { g with pending := g.pending ++ [task] }
  | .gateway, .gatewayWake =>
      sim.modifyGateway fun g => { g with state := .idle, recheck := false }
  | .gateway, .decisionDue =>
      match sim.gateway.state with
      | .idle => sim
      | .deciding => sim.modifyGateway fun g => { g with recheck := true }
  | .gateway, .taskFinished task node => sim.onFinished task node
  | .gateway, .taskSubmit _ _ => sim

def prompts (sim : Simulation α) (target : Target) (message : Message) : Bool :=
  match target, message with
  | .gateway, .taskArrival _ =>
      sim.gateway.state == .idle && sim.context.topology.anyCandidateIdle
  | .gateway, .gatewayWake => !sim.gateway.allNodesBusy || sim.gateway.recheck
  | .gateway, .decisionDue => sim.gateway.state == .idle
  | _, _ => false

/-- Every delivery takes note of its message and then consults the strategy or
does not. -/
theorem deliver_eq {m : Type → Type} [Monad m] (sim : Simulation α)
    (policy : Policy m α) (target : Target) (message : Message) :
    sim.deliver policy target message =
      if sim.prompts target message then
        (sim.heard target message).decide policy
      else return (.ok (), sim.heard target message) := by
  cases target with
  | datacenter id => rfl
  | gateway =>
      cases message with
      | taskArrival task =>
          change (if sim.gateway.state = .idle ∧
              sim.context.topology.anyCandidateIdle = true then
              (sim.heard .gateway (.taskArrival task)).decide policy
            else return (.ok (), sim.heard .gateway (.taskArrival task))) = _
          simp [prompts]
      | gatewayWake => simp [deliver, handle, onWake, prompts, heard]
      | decisionDue =>
          cases hstate : sim.gateway.state <;>
            simp [deliver, handle, decideOrRecheck, prompts, heard, hstate]
      | taskSubmit task node => rfl
      | taskFinished task node => rfl

theorem idle_of_prompts (sim : Simulation α) (target : Target)
    (message : Message) (hprompts : sim.prompts target message = true) :
    (sim.heard target message).gateway.state = .idle := by
  cases target with
  | datacenter id => cases hprompts
  | gateway =>
      cases message with
      | taskArrival id =>
          have hidle : sim.gateway.state = .idle := by
            simp only [prompts, Bool.and_eq_true, beq_iff_eq] at hprompts
            exact hprompts.1
          exact hidle
      | gatewayWake => rfl
      | decisionDue =>
          have hidle : sim.gateway.state = .idle := by
            simpa only [prompts, beq_iff_eq] using hprompts
          simp only [heard, hidle]
      | taskSubmit id node => cases hprompts
      | taskFinished id node => cases hprompts

def settled (sim : Simulation α) (decision : Option (Decision α))
    (strategy : Strategy α) (ctx : Context α) : Simulation α :=
  let after : Simulation α :=
    { sim with
      gateway := { sim.gateway with strategy := strategy }
      context := ctx }
  match decision with
  | none => after
  | some decision => after.enact decision

@[simp] theorem settled_context (sim : Simulation α)
    (decision : Option (Decision α)) (strategy : Strategy α)
    (ctx : Context α) :
    (sim.settled decision strategy ctx).context = ctx := by
  cases decision <;> rfl

@[simp] theorem settled_now (sim : Simulation α)
    (decision : Option (Decision α)) (strategy : Strategy α)
    (ctx : Context α) :
    (sim.settled decision strategy ctx).queue.now = sim.queue.now := by
  rcases decision with _ | ⟨outcome, cost⟩
  · rfl
  · cases outcome with
    | assigned task node transfer =>
        simp only [settled, enact, dispatch]
        split <;> rfl
    | dropped task => rfl
    | rejected node => rfl
    | noCapacity => rfl

@[simp] theorem settled_strategy (sim : Simulation α)
    (decision : Option (Decision α)) (strategy : Strategy α)
    (ctx : Context α) :
    (sim.settled decision strategy ctx).gateway.strategy = strategy := by
  cases decision <;> rfl

@[simp] theorem heard_strategy (sim : Simulation α) (target : Target)
    (message : Message) :
    (sim.heard target message).gateway.strategy = sim.gateway.strategy := by
  cases target with
  | datacenter id =>
      cases message with
      | taskSubmit task node =>
          simp only [heard, runOnDatacenter]
          split <;> rfl
      | taskArrival task => rfl
      | gatewayWake => rfl
      | decisionDue => rfl
      | taskFinished task node => rfl
  | gateway =>
      cases message with
      | taskArrival task => rfl
      | gatewayWake => rfl
      | decisionDue =>
          simp only [heard]
          split <;> rfl
      | taskSubmit task node => rfl
      | taskFinished task node =>
          simp only [heard, onFinished]
          split <;> rfl

@[simp] theorem heard_metrics (sim : Simulation α) (target : Target)
    (message : Message) :
    (sim.heard target message).context.metrics = sim.context.metrics := by
  cases target with
  | datacenter id =>
      cases message with
      | taskSubmit task node =>
          simp only [heard, runOnDatacenter]
          split <;> rfl
      | taskArrival task => rfl
      | gatewayWake => rfl
      | decisionDue => rfl
      | taskFinished task node => rfl
  | gateway =>
      cases message with
      | taskArrival task => rfl
      | gatewayWake => rfl
      | decisionDue =>
          simp only [heard]
          split <;> rfl
      | taskSubmit task node => rfl
      | taskFinished task node =>
          simp only [heard, onFinished]
          split <;> rfl

theorem settled_queue_of_unplaced (sim : Simulation α)
    {outcome : Outcome α} (cost : Span α) (strategy : Strategy α)
    (ctx : Context α)
    (hunplaced : ∀ task node transfer,
      outcome ≠ .assigned task node transfer) :
    (sim.settled (some ⟨outcome, cost⟩) strategy ctx).queue =
      sim.queue.schedule cost .gateway .gatewayWake := by
  cases outcome with
  | assigned task node transfer =>
      exact (hunplaced task node transfer rfl).elim
  | dropped task => rfl
  | rejected node => rfl
  | noCapacity => rfl

theorem settled_queue_of_assigned (sim : Simulation α) (task : TaskId)
    {node : NodeId} (transfer cost : Span α) (strategy : Strategy α)
    {ctx : Context α} {target : Node α}
    (htarget : ctx.topology.node? node = some target) :
    (sim.settled (some ⟨.assigned task node transfer, cost⟩) strategy
        ctx).queue =
      (sim.queue.schedule (cost + transfer) (.datacenter target.datacenter)
        (.taskSubmit task node)).schedule cost .gateway .gatewayWake := by
  simp only [settled, enact, dispatch, htarget]

theorem decide_ok_iff {policy : Policy (StateM σ) α} {sim after : Simulation α}
    {before left : σ} :
    (sim.decide policy).run before = ((.ok (), after), left) ↔
      ∃ decision strategy ctx,
        (sim.gateway.strategy.decide sim.gateway.pending sim.context policy
          sim.queue.now).run before = (⟨.ok decision, strategy, ctx⟩, left) ∧
        after = sim.settled decision strategy ctx := by
  unfold decide
  cases hdecide : (sim.gateway.strategy.decide sim.gateway.pending sim.context
      policy sim.queue.now).run before with
  | mk cycle last =>
      rw [run_bind_eq hdecide]
      obtain ⟨result, strategy, ctx⟩ := cycle
      constructor
      · intro hrun
        cases result with
        | error fault => cases hrun
        | ok decision =>
            refine ⟨decision, strategy, ctx, ?_⟩
            cases decision <;> cases hrun <;> exact ⟨rfl, rfl⟩
      · rintro ⟨decision, next, left, hcycle, rfl⟩
        cases hcycle
        cases decision <;> rfl

theorem next?_eq_some {sim popped : Simulation α} {ending : EndCondition α}
    {event : Event α} (hnext : sim.next? ending = some (event, popped)) :
    popped.gateway = sim.gateway ∧ popped.context = sim.context ∧
      sim.queue.pop? ending = some (event, popped.queue) := by
  unfold next? at hnext
  cases hpop : sim.queue.pop? ending with
  | none => simp [hpop] at hnext
  | some pair =>
      obtain ⟨head, queue⟩ := pair
      simp only [hpop, Option.map_some, Option.some.injEq,
        Prod.mk.injEq] at hnext
      obtain ⟨rfl, rfl⟩ := hnext
      exact ⟨rfl, rfl, rfl⟩

theorem count_next {sim popped : Simulation α} {ending : EndCondition α}
    {event : Event α} (hnext : sim.next? ending = some (event, popped))
    (message : Message) :
    sim.queue.messages.count message = popped.queue.messages.count message +
      if event.message = message then 1 else 0 := by
  obtain ⟨_, _, hpop⟩ := next?_eq_some hnext
  rw [EventQueue.pop?_messages hpop, List.count_cons]
  simp

theorem mem_future_next {sim popped : Simulation α} {ending : EndCondition α}
    {event other : Event α} (hnext : sim.next? ending = some (event, popped)) :
    other ∈ sim.queue.future ↔ other = event ∨ other ∈ popped.queue.future := by
  obtain ⟨_, _, hpop⟩ := next?_eq_some hnext
  rw [(EventQueue.pop?_eq_some hpop).1, List.mem_cons]

theorem now_next {sim popped : Simulation α} {ending : EndCondition α}
    {event : Event α} (hnext : sim.next? ending = some (event, popped)) :
    popped.queue.now = event.time := by
  obtain ⟨_, _, hpop⟩ := next?_eq_some hnext
  exact (EventQueue.pop?_eq_some hpop).2.1

theorem next?_eq_none {sim : Simulation α} {ending : EndCondition α}
    (hnext : sim.next? ending = none) : sim.queue.pop? ending = none := by
  unfold next? at hnext
  exact Option.map_eq_none_iff.mp hnext

/-- Whatever scheduling keeps is kept by taking note of a message. -/
theorem heard_queue_keeps (Good : EventQueue α → Prop)
    (hschedule : ∀ queue delay target message, Good queue →
      Good (queue.schedule delay target message))
    {sim : Simulation α} (hqueue : Good sim.queue) (target : Target)
    (message : Message) : Good (sim.heard target message).queue := by
  cases target with
  | datacenter id =>
      cases message with
      | taskSubmit task node =>
          simp only [heard, runOnDatacenter]
          split
          next => exact hschedule _ _ _ _ hqueue
          next => exact hqueue
      | taskArrival task => exact hqueue
      | gatewayWake => exact hqueue
      | decisionDue => exact hqueue
      | taskFinished task node => exact hqueue
  | gateway =>
      cases message with
      | taskArrival task => exact hqueue
      | gatewayWake => exact hqueue
      | decisionDue =>
          simp only [heard]
          split <;> exact hqueue
      | taskSubmit task node => exact hqueue
      | taskFinished task node =>
          simp only [heard, onFinished]
          split
          next => exact hschedule _ _ _ _ hqueue
          next => exact hqueue

/-- Whatever scheduling keeps is kept by every result of the strategy. -/
theorem settled_queue_keeps (Good : EventQueue α → Prop)
    (hschedule : ∀ queue delay target message, Good queue →
      Good (queue.schedule delay target message))
    {sim : Simulation α} (hqueue : Good sim.queue)
    (decision : Option (Decision α)) (strategy : Strategy α)
    (ctx : Context α) : Good (sim.settled decision strategy ctx).queue := by
  rcases decision with _ | ⟨outcome, cost⟩
  · exact hqueue
  · cases outcome with
    | assigned task node transfer =>
        simp only [settled, enact, dispatch]
        apply hschedule
        split
        next => exact hschedule _ _ _ _ hqueue
        next => exact hqueue
    | dropped task => exact hschedule _ _ _ _ hqueue
    | rejected node => exact hschedule _ _ _ _ hqueue
    | noCapacity => exact hschedule _ _ _ _ hqueue

/-- Whatever scheduling keeps is kept by every delivery, faults included. -/
theorem deliver_queue_keeps (Good : EventQueue α → Prop)
    (hschedule : ∀ queue delay target message, Good queue →
      Good (queue.schedule delay target message))
    {sim : Simulation α} (hqueue : Good sim.queue)
    (policy : Policy (StateM σ) α) (target : Target) (message : Message)
    (before : σ) :
    Good ((sim.deliver policy target message).run before).1.2.queue := by
  have hheard := heard_queue_keeps Good hschedule hqueue target message
  rw [deliver_eq]
  split
  next =>
    unfold decide
    cases hdecide : ((sim.heard target message).gateway.strategy.decide
        (sim.heard target message).gateway.pending
        (sim.heard target message).context policy
        (sim.heard target message).queue.now).run before with
    | mk cycle last =>
        rw [run_bind_eq hdecide]
        obtain ⟨result, strategy, ctx⟩ := cycle
        cases result with
        | error fault => exact hheard
        | ok decision =>
            have hsettled := settled_queue_keeps Good hschedule hheard
              decision strategy ctx
            cases decision with
            | none => exact hsettled
            | some decision => exact hsettled
  next => exact hheard

theorem heard_now (sim : Simulation α) (target : Target) (message : Message) :
    (sim.heard target message).queue.now = sim.queue.now := by
  apply heard_queue_keeps fun queue => queue.now = sim.queue.now
  · intro queue delay target message hqueue
    exact hqueue
  · rfl

end Simulation
end FogDispatch
