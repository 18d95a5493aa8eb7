import FogDispatch.Proofs.Books

/-!
# What an episode leaves alone

An episode asks for decisions and gives feedback on them, and nothing else.
Whatever such requests leave alone, the episode does too, whether it comes to
its end or breaks off, and it stays the same episode of the same run with the
same devices.  What a request shows may depend on the simulation, as long as
every delivery keeps what makes it fit.
-/

namespace FogDispatch

variable {α β γ σ : Type}

/-- From memories with one property a program comes to a value and a memory
with another. -/
def Leads (Before : σ → Prop) (After : β → σ → Prop) (program : StateM σ β) :
    Prop :=
  ∀ memory, Before memory →
    After (program.run memory).1 (program.run memory).2

namespace Leads

variable {Before : σ → Prop} {After : β → σ → Prop} {After' : γ → σ → Prop}

theorem pure {value : β}
    (hvalue : ∀ memory, Before memory → After value memory) :
    Leads Before After (Pure.pure value : StateM σ β) :=
  hvalue

theorem bind {first : StateM σ β} {rest : β → StateM σ γ}
    (hfirst : Leads Before After first)
    (hrest : ∀ value, Leads (After value) After' (rest value)) :
    Leads Before After' (first >>= rest) := by
  intro memory hbefore
  have hafter := hfirst memory hbefore
  cases hrun : first.run memory with
  | mk value middle =>
      rw [hrun] at hafter
      rw [run_bind_eq hrun]
      exact hrest value middle hafter

theorem of_and {Known : Prop} {program : StateM σ β}
    (hleads : Known → Leads Before After program) :
    Leads (fun memory => Known ∧ Before memory) After program :=
  fun memory hbefore => hleads hbefore.1 memory hbefore.2

end Leads

/-- A program keeps a property of its memory, and its value has another one. -/
def Keeps (Good : σ → Prop) (Valued : β → Prop) (program : StateM σ β) : Prop :=
  ∀ memory, Good memory →
    Valued (program.run memory).1 ∧ Good (program.run memory).2

namespace Keeps

variable {Good : σ → Prop} {Valued : β → Prop} {Valued' : γ → Prop}

theorem iff_leads {program : StateM σ β} :
    Keeps Good Valued program ↔
      Leads Good (fun value memory => Valued value ∧ Good memory) program :=
  Iff.rfl

theorem pure {value : β} (hvalue : Valued value) :
    Keeps Good Valued (Pure.pure value : StateM σ β) :=
  fun _ hgood => ⟨hvalue, hgood⟩

theorem bind {first : StateM σ β} {rest : β → StateM σ γ}
    (hfirst : Keeps Good Valued first)
    (hrest : ∀ value, Valued value → Keeps Good Valued' (rest value)) :
    Keeps Good Valued' (first >>= rest) :=
  iff_leads.mpr ((iff_leads.mp hfirst).bind fun value =>
    .of_and fun hvalue => iff_leads.mp (hrest value hvalue))

theorem mono {program : StateM σ β} {Weaker : β → Prop}
    (hkeeps : Keeps Good Valued program)
    (hweaker : ∀ value, Valued value → Weaker value) :
    Keeps Good Weaker program :=
  fun memory hgood => (hkeeps memory hgood).imp_left (hweaker _)

end Keeps

/-- The requests that belong to decisions. -/
def Request.OnDecisions : Request α → Prop
  | .askDecision _ _ => True
  | .saveReward _ _ => True
  | .retrain _ _ => True
  | _ => False

/-- The metrics of one episode behind the same earlier ones. -/
structure RunMetrics.SameEpisode (before after : RunMetrics α) : Prop where
  finished : after.finished = before.finished
  episode : after.current.episode = before.current.episode

theorem RunMetrics.SameEpisode.trans {before between after : RunMetrics α}
    (hfirst : before.SameEpisode between)
    (hsecond : between.SameEpisode after) : before.SameEpisode after :=
  ⟨hsecond.finished.trans hfirst.finished,
    hsecond.episode.trans hfirst.episode⟩

/-- The same episode with the same devices and as many tasks. -/
structure Context.Continues (before after : Context α) : Prop where
  metrics : before.metrics.SameEpisode after.metrics
  reset : after.topology.reset = before.topology.reset
  tasks : after.tasks.length = before.tasks.length

namespace Context

theorem Continues.refl (ctx : Context α) : ctx.Continues ctx :=
  ⟨⟨rfl, rfl⟩, rfl, rfl⟩

theorem Continues.trans {before between after : Context α}
    (hfirst : before.Continues between) (hsecond : between.Continues after) :
    before.Continues after :=
  ⟨hfirst.metrics.trans hsecond.metrics, hsecond.reset.trans hfirst.reset,
    hsecond.tasks.trans hfirst.tasks⟩

variable [Arith α]

theorem foldl_completionOf_episode (ctx : Context α) (ids : List TaskId)
    (metrics : EpisodeMetrics α) :
    (ids.foldl ctx.completionOf metrics).episode = metrics.episode := by
  induction ids generalizing metrics with
  | nil => rfl
  | cons id rest ih =>
      rw [List.foldl_cons, ih]
      unfold completionOf EpisodeMetrics.recordCompletion
      split
      next task _ => split <;> rfl
      next => rfl

theorem sameEpisode_releaseFinished (ctx : Context α) (now : Time α) :
    ctx.metrics.SameEpisode (ctx.releaseFinished now).metrics := by
  rw [releaseFinished_eq]
  exact ⟨rfl, ctx.foldl_completionOf_episode _ _⟩

theorem continues_releaseFinished (ctx : Context α) (now : Time α) :
    ctx.Continues (ctx.releaseFinished now) :=
  ⟨ctx.sameEpisode_releaseFinished now,
    congrArg Topology.reset (ctx.releaseFinished_topology now),
    congrArg List.length (ctx.releaseFinished_tasks now)⟩

theorem reset_finishEpisode (ctx : Context α) (clock : Time α) :
    (ctx.finishEpisode clock).topology.reset = ctx.topology.reset :=
  (ctx.continues_releaseFinished clock).reset

theorem continues_place (ctx : Context α) (task : Task α) (node : Node α)
    (now : Time α) (cost : Span α) :
    ctx.Continues (Strategy.place ctx task node now cost).2.2 := by
  rw [Strategy.place_eq]
  dsimp only
  split
  next => exact ⟨⟨rfl, rfl⟩, rfl, rfl⟩
  next =>
    exact ⟨⟨rfl, rfl⟩, Topology.reset_markBusy _ node.id,
      List.length_modify ..⟩

end Context

/-! ## Consultations -/

section Episodes

variable {policy : Policy (StateM σ) α} {Good : σ → Prop}
  {Fits : Request α → Prop}
  (hask : ∀ request : Request α, Fits request →
    Keeps Good (fun _ => True) (policy.ask request))

include hask

namespace Strategy

variable (hscore : ∀ number score, Fits (.saveReward number score))
  {state : List α} (hlesson : ∀ number, Fits (.retrain number state))

include hscore hlesson

theorem feedback_keeps (strategy : Strategy α) (score : α) :
    Keeps Good (fun _ => True) (strategy.feedback policy score state) := by
  unfold feedback
  refine (hask _ (hscore strategy.number score)).bind fun reply _ => ?_
  cases reply with
  | error fault => exact .pure trivial
  | ok _ =>
      dsimp only
      split
      next => exact .pure trivial
      next =>
        refine (hask _ (hlesson (strategy.number - 1))).bind fun reply _ => ?_
        cases reply <;> exact .pure trivial

variable [Arith α]

theorem act_keeps (strategy : Strategy α) (ctx : Context α) (now : Time α)
    (cost : Span α) (task : Task α) (node : Node α) :
    Keeps Good (fun cycle => ctx.Continues cycle.context)
      (strategy.act ctx policy now state cost task node) := by
  unfold act
  split
  next =>
    obtain ⟨hmetrics, hreset, htasks⟩ := ctx.continues_place task node now cost
    refine (strategy.feedback_keeps hask hscore hlesson _).bind
      fun reply _ => ?_
    obtain ⟨result, next⟩ := reply
    cases result <;>
      exact .pure ⟨⟨hmetrics.finished, hmetrics.episode⟩, hreset, htasks⟩
  next => split <;> exact .pure (.refl ctx)

theorem follow_keeps (strategy : Strategy α) (ctx : Context α) (now : Time α)
    (offered : List TaskId) (answer : Answer α) :
    Keeps Good (fun cycle => ctx.Continues cycle.context)
      (strategy.follow ctx policy now offered state answer) := by
  have hsampled : ctx.Continues
      (ctx.measure (·.recordSample now answer.cost answer.cpuPercent)) :=
    ⟨⟨rfl, rfl⟩, rfl, rfl⟩
  unfold follow
  generalize ctx.measure _ = sampled at *
  dsimp only
  split
  next => exact .pure hsampled
  next =>
    split
    next => exact .pure hsampled
    next id place _ =>
      split
      next task node _ _ =>
        exact (strategy.act_keeps hask hscore hlesson sampled now answer.cost
          task node).mono fun _ => hsampled.trans
      next => exact .pure hsampled

omit hlesson in
theorem decide_keeps (strategy : Strategy α) (pending : List TaskId)
    (ctx : Context α) (now : Time α)
    (hquestion : Fits (.askDecision strategy.number
      (strategy.view pending ctx now)))
    (hlesson : ∀ number,
      Fits (.retrain number (strategy.view pending ctx now))) :
    Keeps Good (fun cycle => ctx.Continues cycle.context)
      (strategy.decide pending ctx policy now) := by
  have hswept := ctx.continues_releaseFinished now
  unfold decide
  dsimp only
  split
  next => exact .pure hswept
  next =>
    refine (hask _ hquestion).bind fun reply _ => ?_
    cases reply with
    | error fault => exact .pure hswept
    | ok raw =>
        dsimp only
        split
        next => exact .pure hswept
        next answer _ =>
          exact (strategy.follow_keeps hask hscore hlesson
            (ctx.releaseFinished now) now _ answer).mono fun _ => hswept.trans

end Strategy

/-! ## Episodes -/

variable [Arith α]

/-- What the service is shown if it is consulted now. -/
def Simulation.view (sim : Simulation α) : List α :=
  sim.gateway.strategy.view sim.gateway.pending sim.context sim.queue.now

/-- Every delivery keeps a property of simulations, and what they show to the
service fits. -/
structure Fitting (Fits : Request α → Prop) (Sound : Simulation α → Prop) :
    Prop where
  score : ∀ number score, Fits (.saveReward number score)
  question : ∀ sim number, Sound sim → Fits (.askDecision number sim.view)
  lesson : ∀ sim number, Sound sim → Fits (.retrain number sim.view)
  heard : ∀ sim popped event ending, Sound sim →
    sim.next? ending = some (event, popped) →
      Sound (popped.heard event.target event.message)
  settled : ∀ sim decision strategy ctx, Sound sim →
    sim.context.Continues ctx → Sound (sim.settled decision strategy ctx)

variable {Sound : Simulation α → Prop} (hfitting : Fitting Fits Sound)

include hfitting

namespace Simulation

theorem decide_keeps {sim : Simulation α} (hsound : Sound sim) :
    Keeps Good
      (fun ended => sim.context.Continues ended.2.context ∧
        (ended.1 = .ok () → Sound ended.2))
      (sim.decide policy) := by
  unfold decide
  refine (sim.gateway.strategy.decide_keeps hask hfitting.score
    sim.gateway.pending sim.context sim.queue.now
    (hfitting.question sim _ hsound) fun number =>
      hfitting.lesson sim number hsound).bind fun cycle hcycle => ?_
  obtain ⟨result, strategy, ctx⟩ := cycle
  rcases result with fault | _ | decision
  · exact .pure ⟨hcycle, nofun⟩
  · exact .pure ⟨hcycle, fun _ => hfitting.settled sim none strategy ctx hsound
      hcycle⟩
  · exact .pure ⟨hcycle, fun _ => hfitting.settled sim (some decision) strategy
      ctx hsound hcycle⟩

theorem deliver_keeps {sim popped : Simulation α} {ending : EndCondition α}
    {event : Event α} (hsound : Sound sim)
    (hnext : sim.next? ending = some (event, popped)) :
    Keeps Good
      (fun ended => sim.context.Continues ended.2.context ∧
        (ended.1 = .ok () → Sound ended.2))
      (popped.deliver policy event.target event.message) := by
  have hheard : sim.context.Continues
      (popped.heard event.target event.message).context := by
    refine ⟨?_, heard_topology_reset hnext, heard_length_tasks hnext⟩
    rw [popped.heard_metrics, (next?_eq_some hnext).2.1]
    exact ⟨rfl, rfl⟩
  have hafter := hfitting.heard sim popped event ending hsound hnext
  rw [deliver_eq]
  split
  next =>
    exact (decide_keeps hask hfitting hafter).mono fun _ hended =>
      ⟨hheard.trans hended.1, hended.2⟩
  next => exact .pure ⟨hheard, fun _ => hafter⟩

theorem runEvents_keeps (ending : EndCondition α) (allotted : Nat)
    {sim : Simulation α} (hsound : Sound sim) :
    Keeps Good (fun ended => sim.context.Continues ended.2.context)
      (sim.runEvents policy ending allotted) := by
  induction allotted generalizing sim with
  | zero => exact .pure (.refl _)
  | succ allotted ih =>
      unfold runEvents
      cases hnext : sim.next? ending with
      | none => cases ending <;> exact .pure (.refl _)
      | some pair =>
          obtain ⟨event, popped⟩ := pair
          refine (deliver_keeps hask hfitting hsound hnext).bind
            fun delivered hdelivered => ?_
          obtain ⟨result, after⟩ := delivered
          cases result with
          | error fault => exact .pure hdelivered.1
          | ok _ =>
              exact (ih (hdelivered.2 rfl)).mono fun _ => hdelivered.1.trans

end Simulation

theorem Episode.run_continues (allotted : Nat) (ending : EndCondition α)
    (gateway : Gateway α) (ctx : Context α)
    (hsound : Sound (initial gateway ctx)) :
    Keeps Good (fun ended => ctx.Continues ended.2.context)
      (Episode.run allotted policy ending gateway ctx) := by
  unfold Episode.run
  refine (Simulation.runEvents_keeps hask hfitting ending allotted
    hsound).bind fun ended hended => ?_
  obtain ⟨result, final⟩ := ended
  cases result <;> exact .pure hended

end Episodes

theorem Episode.run_keeps [Arith α] {policy : Policy (StateM σ) α}
    {Good : σ → Prop}
    (hask : ∀ request : Request α, request.OnDecisions →
      Keeps Good (fun _ => True) (policy.ask request))
    (allotted : Nat) (ending : EndCondition α) (gateway : Gateway α)
    (ctx : Context α) :
    Keeps Good (fun ended => ctx.metrics.SameEpisode ended.2.context.metrics)
      (Episode.run allotted policy ending gateway ctx) := by
  have hfitting : Fitting Request.OnDecisions fun _ : Simulation α => True := by
    constructor <;> intros <;> trivial
  exact (Episode.run_continues hask hfitting allotted ending gateway ctx
    trivial).mono fun _ hended => hended.metrics

end FogDispatch
