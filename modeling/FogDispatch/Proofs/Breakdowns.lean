import FogDispatch.Proofs.Run

/-!
# Consultations that break off

A consultation breaks off when the service does not answer, when its answer can
not be read or points nowhere, or when it does not acknowledge what came of its
choice.  In the last case the choice was carried out and scored before the
fault.
-/

namespace FogDispatch
namespace Strategy

variable {α σ : Type} [Arith α]

/-- Everything that a consultation with a fault can have done by then. -/
inductive Fails (policy : Policy (StateM σ) α) (strategy : Strategy α)
    (pending : List TaskId) (ctx : Context α) (now : Time α) (before : σ) :
    Context α → σ → Prop
  | unanswered {reply : Except Fault String} {after : σ}
      (hask : (policy.ask (.askDecision strategy.number
        (strategy.view pending ctx now))).run before = (reply, after))
      (hunread : ∀ raw answer, reply = .ok raw →
        Answer.read strategy.costs raw ≠ .ok answer) :
      Fails policy strategy pending ctx now before (ctx.releaseFinished now)
        after
  | unresolved {answer : Answer α} {after : σ}
      (hasked : strategy.Asked policy pending ctx now before answer after) :
      Fails policy strategy pending ctx now before (ctx.sampled now answer)
        after
  | unheard {answer : Answer α} {middle after : σ} {id : TaskId}
      {place : NodeId} {task : Task α} {node : Node α} {fault : Fault}
      {next : Strategy α}
      (hasked : strategy.Asked policy pending ctx now before answer middle)
      (hnames : strategy.Names pending ctx now answer id place task node)
      (hidle : node.isIdle = true)
      (hfeedback : (strategy.feedback policy
        ((ctx.sampled now answer).score task node now answer.cost)
        (strategy.view pending ctx now)).run middle =
          ((.error fault, next), after)) :
      Fails policy strategy pending ctx now before
        ((Strategy.place (ctx.sampled now answer) task node now
          answer.cost).2.2.measure (·.recordReward
            ((ctx.sampled now answer).score task node now answer.cost))) after

variable {policy : Policy (StateM σ) α} {strategy next : Strategy α}
  {pending : List TaskId} {ctx left : Context α} {now : Time α}
  {before middle after : σ} {answer : Answer α} {fault : Fault}

theorem act_fails {id : TaskId} {place : NodeId} {task : Task α}
    {node : Node α}
    (hasked : strategy.Asked policy pending ctx now before answer middle)
    (hnames : strategy.Names pending ctx now answer id place task node)
    (hrun : (strategy.act (ctx.sampled now answer) policy now
      (strategy.view pending ctx now) answer.cost task node).run middle =
        (⟨.error fault, next, left⟩, after)) :
    strategy.Fails policy pending ctx now before left after := by
  unfold act at hrun
  split at hrun
  next hidle =>
    have hscore : (Strategy.place (ctx.sampled now answer) task node now
        answer.cost).2.1 =
          (ctx.sampled now answer).score task node now answer.cost := by
      rw [place_eq]
    dsimp only at hrun
    rw [hscore] at hrun
    cases hfeedback : (strategy.feedback policy
        ((ctx.sampled now answer).score task node now answer.cost)
        (strategy.view pending ctx now)).run middle with
    | mk reply last =>
        rw [run_bind_eq hfeedback] at hrun
        obtain ⟨result, advanced⟩ := reply
        cases result with
        | ok _ => cases hrun
        | error fault =>
            cases hrun
            exact .unheard hasked hnames hidle hfeedback
  next hbusy => split at hrun <;> cases hrun

theorem follow_fails
    (hasked : strategy.Asked policy pending ctx now before answer middle)
    (hrun : (strategy.follow (ctx.releaseFinished now) policy now
      (strategy.offers pending ctx now) (strategy.view pending ctx now)
      answer).run middle = (⟨.error fault, next, left⟩, after)) :
    strategy.Fails policy pending ctx now before left after := by
  unfold follow at hrun
  dsimp only at hrun
  split at hrun
  next hfull => cases hrun
  next hchosen =>
    split at hrun
    next =>
      cases hrun
      exact .unresolved hasked
    next id place hresolved =>
      split at hrun
      next task node htask hnode =>
        refine act_fails hasked ⟨?_, hresolved, htask, hnode⟩ hrun
        simpa using hchosen
      next =>
        cases hrun
        exact .unresolved hasked

/-- A consultation with a fault is one of the listed ones. -/
theorem decide_fails
    (hrun : (strategy.decide pending ctx policy now).run before =
      (⟨.error fault, next, left⟩, after)) :
    strategy.Fails policy pending ctx now before left after := by
  unfold decide at hrun
  dsimp only at hrun
  split at hrun
  next hempty => cases hrun
  next hoffers =>
    cases hask : (policy.ask (.askDecision strategy.number
        (strategy.view pending ctx now))).run before with
    | mk reply middle =>
        rw [run_bind_eq (by exact hask)] at hrun
        cases reply with
        | error fault =>
            cases hrun
            exact .unanswered hask fun raw answer hreply => by cases hreply
        | ok raw =>
            cases hread : Answer.read strategy.costs raw with
            | error fault =>
                simp only [hread] at hrun
                cases hrun
                refine .unanswered hask fun other answer hreply => ?_
                obtain rfl := Except.ok.inj hreply
                simp [hread]
            | ok answer =>
                simp only [hread] at hrun
                refine follow_fails ⟨?_, raw, hask, hread⟩ hrun
                simpa [offers] using hoffers

end Strategy

variable {α σ : Type} [Arith α]

theorem Simulation.decide_fails {policy : Policy (StateM σ) α}
    {sim after : Simulation α} {before left : σ} {fault : Fault}
    (hrun : (sim.decide policy).run before = ((.error fault, after), left)) :
    sim.gateway.strategy.Fails policy sim.gateway.pending sim.context
      sim.queue.now before after.context left := by
  unfold decide at hrun
  cases hdecide : (sim.gateway.strategy.decide sim.gateway.pending sim.context
      policy sim.queue.now).run before with
  | mk cycle last =>
      rw [run_bind_eq hdecide] at hrun
      obtain ⟨result, strategy, ctx⟩ := cycle
      rcases result with fault | decision
      · cases hrun
        exact Strategy.decide_fails hdecide
      · cases decision <;> cases hrun

/-- A fault that ends a run comes from a consultation that breaks off. -/
theorem Moment.Ends.fails {policy : Policy (StateM σ) α}
    {ending : EndCondition α} {last : Moment σ α} {fault : Fault}
    {final : Simulation α} {after : σ}
    (hends : last.Ends policy ending (.error fault, final) after) :
    ∃ event popped, last.sim.next? ending = some (event, popped) ∧
      popped.prompts event.target event.message = true ∧
      let sim := popped.heard event.target event.message
      sim.gateway.strategy.Fails policy sim.gateway.pending sim.context
        sim.queue.now last.service final.context after := by
  cases hends with
  | failed hnext hdeliver =>
      rw [Simulation.deliver_eq] at hdeliver
      split at hdeliver
      next hprompts =>
        exact ⟨_, _, hnext, hprompts, Simulation.decide_fails hdeliver⟩
      next => cases hdeliver

end FogDispatch
