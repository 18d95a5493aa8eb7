import FogDispatch.Proofs.AnswerText
import FogDispatch.Proofs.Books
import FogDispatch.Proofs.Coupling

/-!
# Picking the task in front

A service that is offered every admitted task and always picks the one in front
does what a service does that is offered nothing else.  The two observe different
states and give different answers, but from the answers on they are carried out
alike: both episodes go through the same states, up to the kind of strategy, and
send the same requests, up to the observed states.
-/

namespace FogDispatch

variable {α : Type}

/-! ## Two services -/

/-- What a service says that picks a node for the task in front. -/
structure Reply where
  time : String
  cpu : String
  choice : String
  others : List String

namespace Reply

def measured (reply : Reply) : String := reply.time ++ "," ++ reply.cpu

def refuses (reply : Reply) : Bool :=
  (Answer.readField Whole.readInt reply.choice.toList).toOption == some (-1)

/-- The answer if only the task in front is offered. -/
def placement (reply : Reply) : String :=
  reply.measured ++ "d" ++ ",".intercalate (reply.choice :: reply.others)

/-- The answer if every admitted task is offered. -/
def joint (reply : Reply) : String :=
  reply.measured ++ "d" ++
    if reply.refuses then "-1" else "0," ++ reply.choice

/-- The choice is one component, and the others are numbers. -/
structure Proper (reply : Reply) : Prop where
  single : ',' ∉ reply.choice.toList
  numbers : ∀ other ∈ reply.others, ∃ n,
    Answer.readField Whole.readInt other.toList = .ok n

end Reply

namespace Request

def isQuestion : Request α → Bool
  | askDecision _ _ => true
  | _ => false

/-- The request without the observed state. -/
def unobserved : Request α → Request α
  | askDecision number _ => askDecision number []
  | retrain number _ => retrain number []
  | other => other

end Request

/-- A service that answers its questions from a script and acknowledges every
other request.  It notes the requests, but not what it observes. -/
def Policy.scripted (script : Nat → Except Fault String) :
    Policy (StateM (List (Request α))) α where
  ask request := do
    let log ← get
    set (log ++ [request.unobserved])
    match request with
    | .askDecision _ _ => return script (log.countP Request.isQuestion)
    | _ => return .ok "ok"

variable {script script' : Nat → Except Fault String}

theorem scripted_question (number : Nat) (state state' : List α) :
    Coupled (fun reply reply' => ∃ count,
        reply = script count ∧ reply' = script' count)
      ((Policy.scripted script).ask (.askDecision number state))
      ((Policy.scripted script').ask (.askDecision number state')) :=
  fun log => ⟨⟨log.countP Request.isQuestion, rfl, rfl⟩, rfl⟩

theorem scripted_reward (number : Nat) (score : α) :
    Coupled (fun reply reply' => reply = .ok "ok" ∧ reply' = .ok "ok")
      ((Policy.scripted script).ask (.saveReward number score))
      ((Policy.scripted script').ask (.saveReward number score)) :=
  fun _ => ⟨⟨rfl, rfl⟩, rfl⟩

theorem scripted_lesson (number : Nat) (state state' : List α) :
    Coupled (fun reply reply' => reply = .ok "ok" ∧ reply' = .ok "ok")
      ((Policy.scripted script).ask (.retrain number state))
      ((Policy.scripted script').ask (.retrain number state')) :=
  fun _ => ⟨⟨rfl, rfl⟩, rfl⟩

/-! ## Two answers -/

/-- The action on the task in front that an action on a node stands for. -/
def actionAtHead : List Int → List Int
  | [] => []
  | first :: _ => if first = -1 then [-1] else [0, first]

def Answer.atHead (answer : Answer α) : Answer α :=
  { answer with action := actionAtHead answer.action }

namespace Reply

variable {reply : Reply}

theorem actionOf?_picked {choice : String} (hsingle : ',' ∉ choice.toList) :
    Answer.actionOf? ("0," ++ choice).toList =
      (Answer.readField Whole.readInt choice.toList).toOption.map ([0, ·]) := by
  have hcomma : ("0," ++ choice).toList = ['0'] ++ ',' :: choice.toList := by
    simp
  have hzero : Answer.readField Whole.readInt ['0'] = .ok 0 := by decide
  rw [hcomma, Answer.actionOf?, splitAll_append _ (by decide),
    splitAll_eq_singleton hsingle, List.mapM_cons, List.mapM_cons, hzero]
  cases Answer.readField Whole.readInt choice.toList <;> rfl

theorem Proper.action_eq (hproper : reply.Proper) :
    Answer.actionOf?
        (if reply.refuses then "-1" else "0," ++ reply.choice).toList =
      (Answer.actionOf? (",".intercalate
        (reply.choice :: reply.others)).toList).map actionAtHead := by
  have hothers : ∀ other ∈ reply.others.map String.toList, ∃ n,
      Answer.readField Whole.readInt other = .ok n := by
    simpa using hproper.numbers
  obtain ⟨rest, hplacement⟩ :=
    Answer.actionOf?_intercalate hproper.single hothers
  have hpicked := actionOf?_picked hproper.single
  have hrefused : Answer.actionOf? "-1".toList = some [-1] := by decide
  rw [String.toList_intercalate, List.map_cons]
  have hmark : ",".toList = [','] := rfl
  rw [hmark, hplacement]
  unfold refuses
  cases hread : Answer.readField Whole.readInt reply.choice.toList with
  | error fault =>
      rw [hread] at hpicked
      exact hpicked
  | ok n =>
      rw [hread] at hpicked
      by_cases hn : n = -1
      · rw [hn]
        exact hrefused
      · have hnot : ((Except.ok n : Except AnswerFault Int).toOption ==
            some (-1)) = false := by
          simp [Except.toOption, hn]
        rw [hnot]
        refine hpicked.trans ?_
        simp [Except.toOption, actionAtHead, hn]

theorem Proper.read_joint [Arith α] (hproper : reply.Proper)
    (model : CostModel α) :
    (Answer.read model reply.joint).toOption =
      (Answer.read model reply.placement).toOption.map Answer.atHead := by
  have hread : ∀ raw, (Answer.read model raw).toOption =
      (Answer.readChars model raw.toList).toOption := by
    intro raw
    unfold Answer.read
    cases Answer.readChars model raw.toList <;> rfl
  have hjoint : reply.joint.toList = reply.measured.toList ++ 'd' ::
      (if reply.refuses then "-1" else "0," ++ reply.choice).toList := by
    simp [joint]
  have hplacement : reply.placement.toList = reply.measured.toList ++ 'd' ::
      (",".intercalate (reply.choice :: reply.others)).toList := by
    simp [placement]
  rw [hread, hread, hjoint, hplacement]
  exact Answer.readChars_map model _ hproper.action_eq

end Reply

/-! ## Two strategies -/

def Strategy.joint (strategy : Strategy α) : Strategy α :=
  { strategy with kind := .joint }

def Simulation.joint (sim : Simulation α) : Simulation α :=
  { sim with
    gateway := { sim.gateway with strategy := sim.gateway.strategy.joint } }

def Moment.joint {σ : Type} (now : Moment σ α) : Moment σ α :=
  { now with sim := now.sim.joint }

/-- A strategy that offers only the task in front. -/
structure Strategy.Places (costs : CostModel α) (strategy : Strategy α) :
    Prop where
  kind : strategy.kind = .placement
  costs : strategy.costs = costs

variable {costs : CostModel α}

/-- Two cycles that differ in the kinds of their strategies, and in the fault if
they fail. -/
structure Cycle.AtHead (costs : CostModel α) (cycle cycle' : Cycle α) :
    Prop where
  result : SameResult (fun _ _ => True) cycle.result cycle'.result
  strategy : cycle'.strategy = cycle.strategy.joint
  places : cycle.strategy.Places costs
  context : cycle'.context = cycle.context

namespace Strategy

variable {strategy : Strategy α}

theorem feedback_joint (hplaces : strategy.Places costs) (score : α)
    (state state' : List α) :
    Coupled (fun reply reply' => reply' = (reply.1, reply.2.joint) ∧
        reply.2.Places costs)
      (strategy.feedback (.scripted script) score state)
      (strategy.joint.feedback (.scripted script') score state') := by
  have hnumber : strategy.joint.number = strategy.number := rfl
  have hadvanced : Places costs
      { strategy with number := strategy.number + 1 } :=
    ⟨hplaces.kind, hplaces.costs⟩
  unfold feedback
  rw [hnumber]
  refine (scripted_reward _ _).bind ?_
  rintro _ _ ⟨rfl, rfl⟩
  dsimp only
  split
  next => exact .pure ⟨rfl, hadvanced⟩
  next =>
    refine (scripted_lesson _ _ _).bind ?_
    rintro _ _ ⟨rfl, rfl⟩
    exact .pure ⟨rfl, hadvanced⟩

theorem isNoCapacity_atHead (answer : Answer α) :
    answer.atHead.isNoCapacity = answer.isNoCapacity := by
  obtain ⟨cost, cpu, action⟩ := answer
  cases action with
  | nil => rfl
  | cons first rest =>
      by_cases hfirst : first = -1
      · simp [Answer.atHead, Answer.isNoCapacity, actionAtHead, hfirst]
      · simp [Answer.atHead, Answer.isNoCapacity, actionAtHead, hfirst]

/-- The first admitted task is the first one that is offered. -/
theorem resolve?_atHead {answer : Answer α}
    (hchosen : answer.isNoCapacity = false) (admitted : List TaskId)
    (nodes : List NodeId) :
    resolve? .joint admitted nodes answer.atHead.action =
      resolve? .placement (admitted.take 1) nodes answer.action := by
  obtain ⟨cost, cpu, action⟩ := answer
  cases action with
  | nil => rfl
  | cons first rest =>
      have hfirst : first ≠ -1 := by
        simpa [Answer.isNoCapacity] using hchosen
      have haction : actionAtHead (first :: rest) = [0, first] :=
        if_neg hfirst
      simp only [Answer.atHead, haction, resolve?]
      cases admitted with
      | nil => cases pick? nodes first <;> rfl
      | cons task others =>
          have hhead : pick? (task :: others) 0 = some task := rfl
          simp [hhead]

variable [Arith α]

theorem act_joint (hplaces : strategy.Places costs) (ctx : Context α)
    (now : Time α) (state state' : List α) (cost : Span α) (task : Task α)
    (node : Node α) :
    Coupled (Cycle.AtHead costs)
      (strategy.act ctx (.scripted script) now state cost task node)
      (strategy.joint.act ctx (.scripted script') now state' cost task
        node) := by
  unfold act
  split
  next =>
    refine (feedback_joint hplaces _ state state').bind ?_
    rintro ⟨result, next⟩ _ ⟨rfl, hnext⟩
    cases result with
    | error fault => exact .pure ⟨.error trivial, rfl, hnext, rfl⟩
    | ok _ => exact .pure ⟨.ok _, rfl, hnext, rfl⟩
  next =>
    split
    next => exact .pure ⟨.ok _, rfl, hplaces, rfl⟩
    next => exact .pure ⟨.ok _, rfl, hplaces, rfl⟩

theorem follow_joint (hplaces : strategy.Places costs) (ctx : Context α)
    (now : Time α) (admitted : List TaskId) (state state' : List α)
    (answer : Answer α) :
    Coupled (Cycle.AtHead costs)
      (strategy.follow ctx (.scripted script) now (admitted.take 1) state
        answer)
      (strategy.joint.follow ctx (.scripted script') now admitted state'
        answer.atHead) := by
  have hcost : answer.atHead.cost = answer.cost := rfl
  have hcpu : answer.atHead.cpuPercent = answer.cpuPercent := rfl
  have hjoint : strategy.joint.kind = .joint := rfl
  unfold follow
  simp only [isNoCapacity_atHead, hcost, hcpu, hjoint, hplaces.kind]
  generalize ctx.measure _ = sampled
  split
  next => exact .pure ⟨.ok _, rfl, hplaces, rfl⟩
  next hchosen =>
    rw [resolve?_atHead (by simpa using hchosen)]
    split
    next => exact .pure ⟨.error trivial, rfl, hplaces, rfl⟩
    next id place _ =>
      split
      next task node _ _ =>
        exact act_joint hplaces sampled now state state' answer.cost task node
      next => exact .pure ⟨.error trivial, rfl, hplaces, rfl⟩

end Strategy

variable [Arith α]

/-- Two scripts fail at the same questions, and where they do not their answers
are read as the same choice. -/
def SameChoices (costs : CostModel α)
    (script script' : Nat → Except Fault String) : Prop :=
  ∀ count,
    (∃ fault fault', script count = .error fault ∧
      script' count = .error fault') ∨
    ∃ raw raw', script count = .ok raw ∧ script' count = .ok raw' ∧
      (Answer.read costs raw').toOption =
        (Answer.read costs raw).toOption.map Answer.atHead

theorem Answer.read_atHead {raw raw' : String}
    (hsame : (Answer.read costs raw').toOption =
      (Answer.read costs raw).toOption.map Answer.atHead) :
    (∃ fault fault', Answer.read costs raw = .error fault ∧
      Answer.read costs raw' = .error fault') ∨
    ∃ answer, Answer.read costs raw = .ok answer ∧
      Answer.read costs raw' = .ok answer.atHead := by
  cases hread : Answer.read costs raw with
  | error fault =>
      cases hread' : Answer.read costs raw' with
      | error fault' => exact Or.inl ⟨fault, fault', rfl, rfl⟩
      | ok answer' =>
          rw [hread, hread'] at hsame
          exact nomatch hsame
  | ok answer =>
      cases hread' : Answer.read costs raw' with
      | error fault' =>
          rw [hread, hread'] at hsame
          exact nomatch hsame
      | ok answer' =>
          rw [hread, hread'] at hsame
          obtain rfl : answer' = answer.atHead := Option.some.inj hsame
          exact Or.inr ⟨answer, rfl, rfl⟩

theorem Strategy.decide_joint {strategy : Strategy α}
    (hplaces : strategy.Places costs)
    (hchoices : SameChoices costs script script')
    (pending : List TaskId) (ctx : Context α) (now : Time α) :
    Coupled (Cycle.AtHead costs)
      (strategy.decide pending ctx (.scripted script) now)
      (strategy.joint.decide pending ctx (.scripted script') now) := by
  have hplacement : ∀ admitted, offered strategy.kind admitted =
      admitted.take 1 := by
    intro admitted
    rw [hplaces.kind]
    rfl
  have hjoint : ∀ admitted, offered strategy.joint.kind admitted = admitted :=
    fun _ => rfl
  have hempty : ∀ admitted : List TaskId,
      (admitted.take 1).isEmpty = admitted.isEmpty := by
    intro admitted
    cases admitted <;> rfl
  have hcosts : strategy.joint.costs = costs := hplaces.costs
  unfold decide
  simp only [hplacement, hjoint, hempty, hcosts, hplaces.costs]
  generalize ctx.releaseFinished now = swept
  split
  next => exact .pure ⟨.ok _, rfl, hplaces, rfl⟩
  next =>
    refine (scripted_question _ _ _).bind ?_
    rintro _ _ ⟨count, rfl, rfl⟩
    rcases hchoices count with ⟨fault, fault', hreply, hreply'⟩ |
      ⟨raw, raw', hreply, hreply', hsame⟩
    · rw [hreply, hreply']
      exact .pure ⟨.error trivial, rfl, hplaces, rfl⟩
    · rw [hreply, hreply']
      dsimp only
      rcases Answer.read_atHead hsame with ⟨fault, fault', hread, hread'⟩ |
        ⟨answer, hread, hread'⟩
      · rw [hread, hread']
        exact .pure ⟨.error trivial, rfl, hplaces, rfl⟩
      · rw [hread, hread']
        exact follow_joint hplaces swept now _ _ _ answer

/-! ## Two episodes -/

namespace Simulation

/-- Two states that differ in the kinds of their strategies. -/
structure AtHead (costs : CostModel α) (sim sim' : Simulation α) : Prop where
  joint : sim' = sim.joint
  places : sim.gateway.strategy.Places costs

variable {sim sim' : Simulation α} {ending : EndCondition α}

theorem heard_joint (sim : Simulation α) (target : Target)
    (message : Message) :
    sim.joint.heard target message = (sim.heard target message).joint := by
  cases target with
  | datacenter id =>
      cases message with
      | taskSubmit task node =>
          simp only [heard, runOnDatacenter, joint]
          split <;> rfl
      | taskArrival task => rfl
      | gatewayWake => rfl
      | decisionDue => rfl
      | taskFinished task node => rfl
  | gateway =>
      cases message with
      | taskArrival task => rfl
      | gatewayWake => rfl
      | decisionDue =>
          simp only [heard, joint]
          split <;> rfl
      | taskSubmit task node => rfl
      | taskFinished task node =>
          simp only [heard, onFinished, joint]
          split <;> rfl

omit [Arith α] in
theorem prompts_joint (sim : Simulation α) (target : Target)
    (message : Message) :
    sim.joint.prompts target message = sim.prompts target message := by
  cases target <;> cases message <;> rfl

theorem decide_joint (hplaces : sim.gateway.strategy.Places costs)
    (hchoices : SameChoices costs script script') :
    Coupled (SameEnd (fun _ _ => True) (AtHead costs))
      (sim.decide (.scripted script))
      (sim.joint.decide (.scripted script')) := by
  unfold decide
  refine (Strategy.decide_joint hplaces hchoices sim.gateway.pending
    sim.context sim.queue.now).bind ?_
  rintro ⟨result, strategy, ctx⟩ ⟨result', strategy', ctx'⟩
    ⟨hresult, hstrategy, hnext, hctx⟩
  obtain rfl : strategy' = strategy.joint := hstrategy
  obtain rfl : ctx' = ctx := hctx
  dsimp only at hresult
  cases hresult with
  | error hfaults => exact .pure ⟨.error hfaults, rfl, hnext⟩
  | ok decision =>
      cases decision with
      | none => exact .pure ⟨.ok (), rfl, hnext⟩
      | some decision => exact .pure ⟨.ok (), rfl, hnext⟩

theorem AtHead.delivers (hsim : sim.AtHead costs sim')
    (hchoices : SameChoices costs script script') :
    DeliversAlike (fun _ _ => True) (AtHead costs) (.scripted script)
      (.scripted script') ending sim sim' := by
  obtain ⟨rfl, hplaces⟩ := hsim
  have hnext' : sim.joint.next? ending =
      (sim.next? ending).map (Prod.map id Simulation.joint) := by
    rw [next?, next?, Option.map_map]
    rfl
  cases hnext : sim.next? ending with
  | none =>
      rw [hnext] at hnext'
      exact Or.inl ⟨hnext, hnext'⟩
  | some pair =>
      obtain ⟨event, popped⟩ := pair
      rw [hnext] at hnext'
      refine Or.inr ⟨event, popped, popped.joint, hnext, hnext', ?_⟩
      have hheard : (popped.heard event.target
          event.message).gateway.strategy.Places costs := by
        rw [heard_strategy, (next?_eq_some hnext).1]
        exact hplaces
      rw [deliver_eq, deliver_eq, heard_joint, prompts_joint]
      split
      next => exact decide_joint hheard hchoices
      next => exact .pure ⟨.ok (), rfl, hheard⟩

end Simulation

theorem Reply.sameChoices {replies : Nat → Except Fault Reply}
    (hproper : ∀ count reply, replies count = .ok reply → reply.Proper)
    (costs : CostModel α) :
    SameChoices costs (fun count => (replies count).map Reply.placement)
      (fun count => (replies count).map Reply.joint) := by
  intro count
  cases hreply : replies count with
  | error fault =>
      left
      refine ⟨fault, fault, ?_, ?_⟩
      · simp only [hreply, Except.map]
      · simp only [hreply, Except.map]
  | ok reply =>
      right
      refine ⟨reply.placement, reply.joint, ?_, ?_,
        (hproper count reply hreply).read_joint costs⟩
      · simp only [hreply, Except.map]
      · simp only [hreply, Except.map]

omit [Arith α] in
theorem Moment.eq_map_joint {σ : Type} {now now' : Option (Moment σ α)}
    (hrelated : Option.Rel (fun now now' =>
      now.sim.AtHead costs now'.sim ∧ now'.service = now.service) now now') :
    now' = now.map Moment.joint := by
  cases hrelated with
  | none => rfl
  | @some now now' hnow =>
      obtain ⟨sim', service'⟩ := now'
      obtain ⟨⟨hsim, _⟩, hservice⟩ := hnow
      obtain rfl : sim' = now.sim.joint := hsim
      obtain rfl : service' = now.service := hservice
      rfl

/-- A joint strategy that always picks the task in front does what a strategy
does that is offered nothing else.  After every event both are in the same
state, up to the kind of strategy, and have sent the same requests, up to the
observed states; and if one of them ends in a fault, the other does at the same
request. -/
theorem Moment.joint_at_head {replies : Nat → Except Fault Reply}
    (hproper : ∀ count reply, replies count = .ok reply → reply.Proper)
    (costs : CostModel α) (ctx : Context α) (episode : Nat)
    (dataset : Dataset α) (ending : EndCondition α) :
    let placing : Policy (StateM (List (Request α))) α :=
      .scripted fun count => (replies count).map Reply.placement
    let choosing : Policy (StateM (List (Request α))) α :=
      .scripted fun count => (replies count).map Reply.joint
    let placement := Gateway.fresh (Strategy.fresh .placement costs)
    let joint := Gateway.fresh (Strategy.fresh .joint costs)
    (∀ count,
      (start joint ctx episode dataset []).after? choosing ending count =
        ((start placement ctx episode dataset []).after? placing ending
          count).map Moment.joint) ∧
    ∀ allotted,
      let ended := (Episode.run allotted placing ending placement.reset
        (ctx.startEpisode episode dataset.jobs dataset.tasks)).run []
      let ended' := (Episode.run allotted choosing ending joint.reset
        (ctx.startEpisode episode dataset.jobs dataset.tasks)).run []
      ended'.1.1.toOption = ended.1.1.toOption ∧
        ended'.1.2 = ended.1.2.joint ∧ ended'.2 = ended.2 := by
  intro placing choosing placement joint
  have hchoices := Reply.sameChoices hproper costs
  have hdeliver : ∀ sim sim' : Simulation α, sim.AtHead costs sim' →
      DeliversAlike (fun _ _ => True) (Simulation.AtHead costs) placing
        choosing ending sim sim' :=
    fun _ _ hsim => hsim.delivers hchoices
  have hstart : Simulation.AtHead costs
      (start placement ctx episode dataset
        ([] : List (Request α))).sim
      (start joint ctx episode dataset ([] : List (Request α))).sim :=
    ⟨rfl, rfl, rfl⟩
  refine ⟨?_, ?_⟩
  · intro count
    exact eq_map_joint (after?_coupled hdeliver count hstart rfl)
  · intro allotted ended ended'
    have hclose : ∀ sim sim' : Simulation α, sim.AtHead costs sim' →
        (sim.closeClock ending).AtHead costs (sim'.closeClock ending) := by
      rintro sim _ ⟨rfl, hplaces⟩
      cases ending <;> exact ⟨rfl, hplaces⟩
    have hcoupled := Episode.run_coupled trivial (fun _ _ hsim => hsim) hclose
      hdeliver (fun _ _ hsim => congrArg (·.queue.now) hsim.joint) allotted
      hstart []
    obtain ⟨⟨hresult, hfinal⟩, hlog⟩ := hcoupled
    exact ⟨hresult.toOption_eq, hfinal.joint, hlog⟩

namespace Sample

/-- The second reply refuses, and every other one picks the first node. -/
def replies (count : Nat) : Except Fault Reply :=
  if count = 1 then .ok ⟨"1", "0", "-1", ["5"]⟩
  else .ok ⟨"1", "0", "0", ["5"]⟩

theorem replies_proper (count : Nat) (reply : Reply)
    (hreply : replies count = .ok reply) : reply.Proper := by
  have hfive : ∀ other ∈ ["5"], ∃ n,
      Answer.readField Whole.readInt other.toList = .ok n := by
    intro other hother
    rw [List.mem_singleton.mp hother]
    exact ⟨5, by decide⟩
  unfold replies at hreply
  split at hreply
  next =>
    cases hreply
    exact ⟨by decide, hfive⟩
  next =>
    cases hreply
    exact ⟨by decide, hfive⟩

end Sample

/-- In the small episode the first task is placed by the first answer, whichever
strategy asks for it. -/
theorem Moment.sample_joint_at_head :
    ∃ now : Moment (List (Request Binary64)) Binary64,
      (start (Gateway.fresh (Strategy.fresh .joint
          Sample.gateway.strategy.costs)) Sample.context 0 Sample.dataset
          []).after?
        (.scripted fun count => (Sample.replies count).map Reply.joint)
        .drained 4 = some now.joint ∧
      (start (Gateway.fresh (Strategy.fresh .placement
          Sample.gateway.strategy.costs)) Sample.context 0 Sample.dataset
          []).after?
        (.scripted fun count => (Sample.replies count).map Reply.placement)
        .drained 4 = some now ∧
      now.sim.context.running = [⟨0⟩] := by
  have hsame := (joint_at_head Sample.replies_proper
    Sample.gateway.strategy.costs Sample.context 0 Sample.dataset
    .drained).1 4
  have hreached : ((start (Gateway.fresh (Strategy.fresh .placement
          Sample.gateway.strategy.costs)) Sample.context 0 Sample.dataset
          ([] : List (Request Binary64))).after?
        (.scripted fun count => (Sample.replies count).map Reply.placement)
        .drained 4).map (·.sim.context.running) = some [⟨0⟩] := by
    decide +kernel
  obtain ⟨now, hnow, hrunning⟩ := Option.map_eq_some_iff.mp hreached
  rw [hnow] at hsame
  exact ⟨now, hsame, hnow, hrunning⟩

end FogDispatch
