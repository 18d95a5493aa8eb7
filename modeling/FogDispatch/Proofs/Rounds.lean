import FogDispatch.Proofs.Books
import FogDispatch.Proofs.Breakdowns
import FogDispatch.Proofs.Requests

/-!
# Rounds of an episode

A decision is asked for once.  If it takes a task out of the queue then it is
rewarded, the service learns from the decision before it, and the next decision
gets the next number.  Otherwise nothing follows, and the number is used again.
The requests of an episode are the rounds of its decisions, numbered from zero.

A consultation that breaks off has said a part of the round that its answer
leads to.
-/

namespace FogDispatch

variable {α σ : Type}

/-- What follows the question of a decision that takes a task out of the
queue. -/
def Request.feedback (number : Nat) (state : List α) (score : α) :
    List (Request α) :=
  .saveReward number score ::
    if number = 0 then [] else [.retrain (number - 1) state]

namespace Outcome

/-- What is said about a decision. -/
def round (outcome : Outcome α) (number : Nat) (state : List α) (score : α) :
    List (Request α) :=
  .askDecision number state ::
    match outcome with
    | .assigned _ _ _ | .dropped _ => Request.feedback number state score
    | .rejected _ | .noCapacity => []

/-- The number of the decision that follows. -/
def successor (outcome : Outcome α) (number : Nat) : Nat :=
  match outcome with
  | .assigned _ _ _ | .dropped _ => number + 1
  | .rejected _ | .noCapacity => number

end Outcome

/-- Decisions in a row, from a first number to the one that comes next. -/
inductive Rounds : Nat → List (Outcome α) → List (Request α) → Nat → Prop
  | done (number : Nat) : Rounds number [] [] number
  | round {outcome : Outcome α} {number last : Nat}
      {outcomes : List (Outcome α)} {later : List (Request α)}
      (state : List α) (score : α)
      (hlater : Rounds (outcome.successor number) outcomes later last) :
      Rounds number (outcome :: outcomes)
        (outcome.round number state score ++ later) last

theorem Rounds.single (outcome : Outcome α) (number : Nat) (state : List α)
    (score : α) :
    Rounds number [outcome] (outcome.round number state score)
      (outcome.successor number) := by
  have hround : Rounds number [outcome]
      (outcome.round number state score ++ []) (outcome.successor number) :=
    .round state score (.done _)
  rwa [List.append_nil] at hround

theorem Rounds.append {first middle last : Nat}
    {earlier later : List (Outcome α)} {before after : List (Request α)}
    (hearlier : Rounds first earlier before middle)
    (hlater : Rounds middle later after last) :
    Rounds first (earlier ++ later) (before ++ after) last := by
  induction hearlier with
  | done number => exact hlater
  | round state score _ ih =>
      rw [List.append_assoc]
      exact .round state score (ih hlater)

namespace Strategy

variable {policy : Policy (StateM σ) α} {strategy next : Strategy α}

theorem feedback_sent {score : α} {state : List α}
    {before after : List (Request α) × σ} {result : Except Fault Unit}
    (hrun : (strategy.feedback policy.recorded score state).run before =
      ((result, next), after)) :
    ∃ sent, after.1 = before.1 ++ sent ∧
      sent <+: Request.feedback strategy.number state score ∧
      (result = .ok () →
        sent = Request.feedback strategy.number state score) := by
  unfold feedback at hrun
  unfold Request.feedback
  cases hsave : (policy.recorded.ask
      (.saveReward strategy.number score)).run before with
  | mk reply middle =>
      rw [run_bind_eq hsave] at hrun
      rw [Policy.recorded_ask, Prod.mk.injEq] at hsave
      obtain ⟨_, rfl⟩ := hsave
      cases reply with
      | error fault =>
          cases hrun
          exact ⟨[.saveReward strategy.number score], rfl, by simp, by simp⟩
      | ok _ =>
          dsimp only at hrun
          split at hrun
          next hzero =>
            cases hrun
            rw [if_pos hzero]
            exact ⟨_, rfl, List.prefix_refl _, fun _ => rfl⟩
          next hlater =>
            rw [if_neg hlater]
            refine ⟨[.saveReward strategy.number score,
              .retrain (strategy.number - 1) state], ?_,
              List.prefix_refl _, fun _ => rfl⟩
            cases hlearn : (policy.recorded.ask
                (.retrain (strategy.number - 1) state)).run
                (before.1 ++ [.saveReward strategy.number score],
                  ((policy.ask (.saveReward strategy.number score)).run
                    before.2).2) with
            | mk reply last =>
                rw [run_bind_eq hlearn] at hrun
                rw [Policy.recorded_ask, Prod.mk.injEq] at hlearn
                obtain ⟨_, rfl⟩ := hlearn
                cases reply <;> cases hrun <;> simp

variable [Arith α] {pending : List TaskId} {ctx left : Context α}
  {now : Time α}

theorem round_place (ctx : Context α) (task : Task α) (node : Node α)
    (now : Time α) (cost : Span α) (number : Nat) (state : List α)
    (score : α) :
    (place ctx task node now cost).1.round number state score =
      .askDecision number state :: Request.feedback number state score := by
  rw [place_eq]
  dsimp only
  split <;> rfl

theorem Asked.sent {before after : List (Request α) × σ} {answer : Answer α}
    (hasked : strategy.Asked policy.recorded pending ctx now before answer
      after) :
    after.1 = before.1 ++
      [.askDecision strategy.number (strategy.view pending ctx now)] := by
  obtain ⟨raw, hask, _⟩ := hasked.answered
  rw [Policy.recorded_ask, Prod.mk.injEq] at hask
  rw [← hask.2]

/-- A decision that moves no task is asked for and nothing else. -/
theorem Asked.round_kept {before after : List (Request α) × σ}
    {answer : Answer α}
    (hasked : strategy.Asked policy.recorded pending ctx now before answer
      after)
    {outcome : Outcome α}
    (hround : ∀ number state score,
      outcome.round number state score = [.askDecision number state]) :
    ∃ said, after.1 = before.1 ++ said ∧
      Rounds strategy.number [outcome] said
        (outcome.successor strategy.number) := by
  refine ⟨_, hasked.sent, ?_⟩
  rw [← hround _ _ Arith.zero]
  exact .single outcome _ _ _

/-- A decision that moves a task is asked for and then rewarded. -/
theorem Asked.round_moved {before middle after : List (Request α) × σ}
    {answer : Answer α} {score : α}
    (hasked : strategy.Asked policy.recorded pending ctx now before answer
      middle)
    (hfeedback : (strategy.feedback policy.recorded score
      (strategy.view pending ctx now)).run middle = ((.ok (), next), after))
    {outcome : Outcome α}
    (hround : ∀ number state score, outcome.round number state score =
      .askDecision number state :: Request.feedback number state score) :
    ∃ said, after.1 = before.1 ++ said ∧
      Rounds strategy.number [outcome] said
        (outcome.successor strategy.number) := by
  obtain ⟨sent, hsent, _, hwhole⟩ := feedback_sent hfeedback
  refine ⟨_, ?_, Rounds.single outcome _ (strategy.view pending ctx now)
    score⟩
  rw [hround, hsent, hasked.sent, hwhole rfl, List.append_assoc]
  rfl

/-- A consultation without a fault says the round of its decision. -/
theorem Consults.rounds {before after : List (Request α) × σ}
    {decision : Option (Decision α)}
    (hconsults : strategy.Consults policy.recorded pending ctx now before
      decision next left after) :
    ∃ said, after.1 = before.1 ++ said ∧
      Rounds strategy.number (decision.map Decision.outcome).toList said
        next.number := by
  cases hconsults with
  | silent hoffers => exact ⟨[], by simp, .done _⟩
  | full hasked hfull => exact hasked.round_kept fun _ _ _ => rfl
  | crowded hasked hnames hbusy hnone =>
      exact hasked.round_kept fun _ _ _ => rfl
  | rejected hasked hnames hbusy hidle =>
      exact hasked.round_kept fun _ _ _ => rfl
  | dropped hasked hnames hidle hmissed hfeedback =>
      exact hasked.round_moved hfeedback fun _ _ _ => rfl
  | assigned hasked hnames hidle hmeets hfeedback =>
      exact hasked.round_moved hfeedback fun _ _ _ => rfl

/-- What is said in a consultation that breaks off: the question, or a part of
the round that the answer leads to. -/
inductive BreaksOff (policy : Policy (StateM σ) α) (strategy : Strategy α)
    (pending : List TaskId) (ctx : Context α) (now : Time α) (before : σ) :
    List (Request α) → Prop
  | question :
      BreaksOff policy strategy pending ctx now before
        [.askDecision strategy.number (strategy.view pending ctx now)]
  | round {answer : Answer α} {middle : σ} {id : TaskId} {place : NodeId}
      {task : Task α} {node : Node α} {said : List (Request α)}
      (hasked : strategy.Asked policy pending ctx now before answer middle)
      (hnames : strategy.Names pending ctx now answer id place task node)
      (hidle : node.isIdle = true)
      (hsaid : said <+: (Strategy.place (ctx.sampled now answer) task node
        now answer.cost).1.round strategy.number
          (strategy.view pending ctx now)
          ((ctx.sampled now answer).score task node now answer.cost)) :
      BreaksOff policy strategy pending ctx now before said

theorem BreaksOff.prefix_round {before : σ} {said : List (Request α)}
    (hbreaks : strategy.BreaksOff policy pending ctx now before said) :
    ∃ (outcome : Outcome α) (state : List α) (score : α),
      said <+: outcome.round strategy.number state score := by
  cases hbreaks with
  | question => exact ⟨.noCapacity, _, Arith.zero, List.prefix_refl _⟩
  | round hasked hnames hidle hsaid => exact ⟨_, _, _, hsaid⟩

/-- A fault breaks the round off. -/
theorem Fails.breaks_off {before after : List (Request α) × σ}
    (hfails : strategy.Fails policy.recorded pending ctx now before left
      after) :
    ∃ said, after.1 = before.1 ++ said ∧
      strategy.BreaksOff policy.recorded pending ctx now before said := by
  cases hfails with
  | unanswered hask hunread =>
      rw [Policy.recorded_ask, Prod.mk.injEq] at hask
      exact ⟨_, by rw [← hask.2], .question⟩
  | unresolved hasked => exact ⟨_, hasked.sent, .question⟩
  | unheard hasked hnames hidle hfeedback =>
      obtain ⟨sent, hsent, hpart, _⟩ := feedback_sent hfeedback
      refine ⟨.askDecision strategy.number (strategy.view pending ctx now) ::
        sent, ?_, .round hasked hnames hidle ?_⟩
      · rw [hsent, hasked.sent, List.append_assoc]
        rfl
      · rw [round_place]
        exact (List.prefix_cons_inj _).mpr hpart

end Strategy

/-! ## Episodes -/

variable [Arith α]

/-- What the strategy came to in a turn, if it came to a decision. -/
def Turn.outcomes (turn : Turn α) : List (Outcome α) :=
  (turn.decision?.map Decision.outcome).toList

namespace Moment

variable {policy : Policy (StateM σ) α} {ending : EndCondition α}

theorem Step.rounds {before after : Moment (List (Request α) × σ) α}
    {turn : Turn α} (hstep : before.Step policy.recorded ending turn after) :
    ∃ said, after.service.1 = before.service.1 ++ said ∧
      Rounds before.sim.gateway.strategy.number turn.outcomes said
        after.sim.gateway.strategy.number := by
  cases hstep with
  | quiet hnext hquiet =>
      obtain ⟨hgateway, _, _⟩ := Simulation.next?_eq_some hnext
      refine ⟨[], by simp, ?_⟩
      rw [Simulation.heard_strategy, hgateway]
      exact .done _
  | consulted hnext hprompts hheard hdecide =>
      obtain ⟨hgateway, _, _⟩ := Simulation.next?_eq_some hnext
      obtain ⟨said, hsent, hrounds⟩ := (Strategy.decide_ok hdecide).rounds
      refine ⟨said, hsent, ?_⟩
      rw [hheard, Simulation.heard_strategy, hgateway] at hrounds
      rw [Simulation.settled_strategy]
      exact hrounds

theorem Run.rounds {first last : Moment (List (Request α) × σ) α}
    {turns : List (Turn α)}
    (hrun : Run policy.recorded ending first turns last) :
    ∃ said, last.service.1 = first.service.1 ++ said ∧
      Rounds first.sim.gateway.strategy.number (turns.flatMap Turn.outcomes)
        said last.sim.gateway.strategy.number := by
  induction hrun with
  | done now => exact ⟨[], by simp, .done _⟩
  | turn hstep _ ih =>
      obtain ⟨said, hsent, hround⟩ := hstep.rounds
      obtain ⟨later, hlater, hrounds⟩ := ih
      refine ⟨said ++ later, ?_, hround.append hrounds⟩
      rw [hlater, hsent, List.append_assoc]

/-- What is said after a moment that no turn follows: nothing if no more events
are allotted, and otherwise what a consultation that breaks off has said. -/
inductive BreaksOff (policy : Policy (StateM σ) α) (ending : EndCondition α)
    (last : Moment σ α) : List (Request α) → Prop
  | cut : BreaksOff policy ending last []
  | consulting {event : Event α} {popped sim : Simulation α}
      {said : List (Request α)}
      (hnext : last.sim.next? ending = some (event, popped))
      (hprompts : popped.prompts event.target event.message = true)
      (hheard : sim = popped.heard event.target event.message)
      (hbreaks : sim.gateway.strategy.BreaksOff policy sim.gateway.pending
        sim.context sim.queue.now last.service said) :
      BreaksOff policy ending last said

theorem BreaksOff.prefix_round {last : Moment σ α} {said : List (Request α)}
    (hbreaks : last.BreaksOff policy ending said) :
    ∃ (outcome : Outcome α) (state : List α) (score : α), said <+:
      outcome.round last.sim.gateway.strategy.number state score := by
  cases hbreaks with
  | cut => exact ⟨.noCapacity, [], Arith.zero, List.nil_prefix⟩
  | consulting hnext hprompts hheard hbreaks =>
      obtain ⟨hgateway, _, _⟩ := Simulation.next?_eq_some hnext
      have hpart := hbreaks.prefix_round
      rw [hheard, Simulation.heard_strategy, hgateway] at hpart
      exact hpart

theorem Ends.breaks_off {last : Moment (List (Request α) × σ) α}
    {fault : Fault} {final : Simulation α} {after : List (Request α) × σ}
    (hends : last.Ends policy.recorded ending (.error fault, final) after) :
    ∃ said, after.1 = last.service.1 ++ said ∧
      last.BreaksOff policy.recorded ending said := by
  obtain ⟨event, popped, hnext, hprompts, hfails⟩ := hends.fails
  obtain ⟨said, hsent, hbreaks⟩ := hfails.breaks_off
  exact ⟨said, hsent, .consulting hnext hprompts rfl hbreaks⟩

/-- An episode says the rounds of a run, and the beginning of another round if a
fault breaks it off. -/
theorem rounds_of_episode {allotted : Nat} {gateway : Gateway α}
    {ctx : Context α} {episode : Nat} {dataset : Dataset α}
    {before after : List (Request α) × σ} {result : Except Fault (Time α)}
    {final : Simulation α}
    (hepisode : (Episode.run allotted policy.recorded ending gateway.reset
      (ctx.startEpisode episode dataset.jobs dataset.tasks)).run before =
        ((result, final), after)) :
    ∃ turns last said,
      Run policy.recorded ending (start gateway ctx episode dataset before)
        turns last ∧
      last.service.1 = before.1 ++ said ∧
      Rounds 0 (turns.flatMap Turn.outcomes) said
        last.sim.gateway.strategy.number ∧
      ((result.isOk = true ∧ last.sim.next? ending = none ∧
          after.1 = last.service.1) ∨
        result.isOk = false ∧ ∃ tail, after.1 = last.service.1 ++ tail ∧
          last.BreaksOff policy.recorded ending tail) := by
  obtain ⟨turns, last, hrun, hend⟩ := run_of_ended hepisode
  have hstart : Run policy.recorded ending
      (start gateway ctx episode dataset before) turns last := hrun
  obtain ⟨said, hsent, hrounds⟩ := hstart.rounds
  refine ⟨turns, last, said, hstart, hsent, hrounds, ?_⟩
  rcases hend with ⟨rfl, hcut, _⟩ | ⟨reached, hends, rfl⟩
  · exact Or.inr ⟨rfl, [], by rw [hcut, List.append_nil], .cut⟩
  · cases reached with
    | ok _ =>
        cases hends with
        | finished hnext => exact Or.inl ⟨rfl, hnext, rfl⟩
    | error fault =>
        obtain ⟨tail, htail, hbreaks⟩ := hends.breaks_off
        exact Or.inr ⟨rfl, tail, htail, hbreaks⟩

end Moment
end FogDispatch
