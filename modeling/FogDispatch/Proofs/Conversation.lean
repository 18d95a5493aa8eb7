import FogDispatch.Experiment
import FogDispatch.Proofs.Rounds

/-!
# The conversation of an experiment

An experiment has an agenda.  For every setup and every seed it announces the
environment, and each episode comes with its rounds, the request to save the
model and the request to move on.  A program says its part of the agenda, all of
it unless a fault comes up, so programs one after the other say their parts one
after the other, and the nested loops of an experiment say the whole agenda.
-/

namespace FogDispatch

variable {σ β γ : Type}

/-- An item of an agenda. -/
inductive Item where
  | request (request : Request Binary64)
  | episode (setup : Plan Binary64) (number : Nat)

namespace Item

/-- The announcement of the environment of a setup. -/
def opening (setup : Plan Binary64) (seed : Nat) : Item :=
  .request (.setup (Setup.ofPlan setup
    (Location.displayName setup.dataset.path)
    (Topology.ofPlanUnchecked setup.topology) seed))

/-- An episode with what is said after it. -/
def closed (setup : Plan Binary64) (number : Nat) : List Item :=
  [.episode setup number, .request (.saveModel number), .request .nextEpisode]

def ofSeed (setup : Plan Binary64) (seed : Nat) : List Item :=
  opening setup seed ::
    (List.range setup.experiment.episodes).flatMap (closed setup)

def ofSetup (setup : Plan Binary64) : List Item :=
  setup.experiment.seeds.flatMap (ofSeed setup)

end Item

/-- Setups in order, seeds in order, episodes from zero. -/
def agenda (plan : Plan Binary64) : List Item :=
  plan.setups.flatMap Item.ofSetup

/-- The requests that an agenda allows for: each request as it stands, and the
rounds of any decisions for an episode, numbered from zero. -/
inductive Protocol : List Item → List (Request Binary64) → Prop
  | done : Protocol [] []
  | request {request : Request Binary64} {rest : List Item}
      {later : List (Request Binary64)} (hlater : Protocol rest later) :
      Protocol (.request request :: rest) (request :: later)
  | episode {setup : Plan Binary64} {number next : Nat}
      {outcomes : List (Outcome Binary64)} {rest : List Item}
      {said later : List (Request Binary64)}
      (hrounds : Rounds 0 outcomes said next) (hlater : Protocol rest later) :
      Protocol (.episode setup number :: rest) (said ++ later)

/-- What was said on an agenda after earlier requests, and whether it is all of
it.  The rounds of an episode belong to the decisions of its run. -/
inductive Talk (policy : Policy (StateM σ) Binary64) :
    List Item → List (Request Binary64) → List (Request Binary64) → Bool →
      Prop
  | done (earlier : List (Request Binary64)) : Talk policy [] earlier [] true
  | failed (items : List Item) (earlier : List (Request Binary64)) :
      Talk policy items earlier [] false
  | request {request : Request Binary64} {rest : List Item}
      {earlier later : List (Request Binary64)} {whole : Bool}
      (hlater : Talk policy rest (earlier ++ [request]) later whole) :
      Talk policy (.request request :: rest) earlier (request :: later) whole
  | episode {setup : Plan Binary64} {number : Nat} {rest : List Item}
      {earlier said later : List (Request Binary64)} {whole : Bool}
      {gateway : Gateway Binary64} {ctx : Context Binary64}
      {dataset : Dataset Binary64} {memory : σ} {turns : List (Turn Binary64)}
      {last : Moment (List (Request Binary64) × σ) Binary64}
      (hrun : Moment.Run policy.recorded setup.ending
        (.start gateway ctx number dataset (earlier, memory)) turns last)
      (hends : last.sim.next? setup.ending = none)
      (hsaid : last.service.1 = earlier ++ said)
      (hrounds : Rounds 0 (turns.flatMap Turn.outcomes) said
        last.sim.gateway.strategy.number)
      (hlater : Talk policy rest (earlier ++ said) later whole) :
      Talk policy (.episode setup number :: rest) earlier (said ++ later)
        whole
  | interrupted {setup : Plan Binary64} {number : Nat} {rest : List Item}
      {earlier said tail : List (Request Binary64)}
      {gateway : Gateway Binary64} {ctx : Context Binary64}
      {dataset : Dataset Binary64} {memory : σ} {turns : List (Turn Binary64)}
      {last : Moment (List (Request Binary64) × σ) Binary64}
      (hrun : Moment.Run policy.recorded setup.ending
        (.start gateway ctx number dataset (earlier, memory)) turns last)
      (hsaid : last.service.1 = earlier ++ said)
      (hrounds : Rounds 0 (turns.flatMap Turn.outcomes) said
        last.sim.gateway.strategy.number)
      (hbreaks : last.BreaksOff policy.recorded setup.ending tail) :
      Talk policy (.episode setup number :: rest) earlier (said ++ tail) false

theorem exists_protocol (items : List Item) : ∃ all, Protocol items all := by
  induction items with
  | nil => exact ⟨[], .done⟩
  | cons item rest ih =>
      obtain ⟨later, hlater⟩ := ih
      cases item with
      | request request => exact ⟨_, .request hlater⟩
      | episode setup number => exact ⟨_, .episode (.done 0) hlater⟩

namespace Talk

variable {policy : Policy (StateM σ) Binary64} {items more : List Item}
  {earlier said later : List (Request Binary64)} {whole : Bool}

/-- Whatever was said is the beginning of what the agenda allows for. -/
theorem protocol (htalk : Talk policy items earlier said whole) :
    ∃ all, Protocol items all ∧ said <+: all ∧
      (whole = true → said = all) := by
  induction htalk with
  | done earlier => exact ⟨[], .done, List.prefix_refl _, fun _ => rfl⟩
  | failed items earlier =>
      obtain ⟨all, hall⟩ := exists_protocol items
      exact ⟨all, hall, List.nil_prefix, by simp⟩
  | request _ ih =>
      obtain ⟨all, hall, hpart, hwhole⟩ := ih
      refine ⟨_, .request hall, (List.prefix_cons_inj _).mpr hpart, ?_⟩
      exact fun h => congrArg _ (hwhole h)
  | episode _ _ _ hrounds _ ih =>
      obtain ⟨all, hall, hpart, hwhole⟩ := ih
      refine ⟨_, .episode hrounds hall,
        (List.prefix_append_right_inj _).mpr hpart, ?_⟩
      exact fun h => congrArg _ (hwhole h)
  | @interrupted setup number rest _ said tail _ _ _ _ _ _ _ _ hrounds
      hbreaks =>
      -- the round that breaks off would have been the last one
      obtain ⟨outcome, state, score, hpart⟩ := hbreaks.prefix_round
      obtain ⟨all, hall⟩ := exists_protocol rest
      have hfinished := hrounds.append (.single outcome _ state score)
      refine ⟨_, .episode hfinished hall, ?_, by simp⟩
      rw [List.append_assoc]
      exact (List.prefix_append_right_inj said).mpr
        (hpart.trans (List.prefix_append _ all))

theorem append (htalk : Talk policy items earlier said true)
    (hmore : Talk policy more (earlier ++ said) later whole) :
    Talk policy (items ++ more) earlier (said ++ later) whole := by
  generalize hfirst : true = first at htalk
  induction htalk with
  | done earlier => simpa using hmore
  | failed items earlier => cases hfirst
  | request _ ih =>
      refine .request (ih ?_ hfirst)
      simpa using hmore
  | episode hrun hends hsaid hrounds _ ih =>
      rw [List.append_assoc]
      refine .episode hrun hends hsaid hrounds (ih ?_ hfirst)
      simpa using hmore
  | interrupted hrun hsaid hrounds hbreaks => cases hfirst

theorem abandon (htalk : Talk policy items earlier said false)
    (more : List Item) : Talk policy (items ++ more) earlier said false := by
  generalize hfirst : false = first at htalk
  induction htalk with
  | done earlier => cases hfirst
  | failed items earlier => exact .failed _ earlier
  | request _ ih => exact .request (ih hfirst)
  | episode hrun hends hsaid hrounds _ ih =>
      exact .episode hrun hends hsaid hrounds (ih hfirst)
  | interrupted hrun hsaid hrounds hbreaks =>
      exact .interrupted hrun hsaid hrounds hbreaks

end Talk

/-! ## Programs and their parts of the agenda -/

/-- A program says its part of an agenda, all of it if it succeeds. -/
def Says (policy : Policy (StateM σ) Binary64) (items : List Item)
    (program : StateM (List (Request Binary64) × σ) (Except Fault β)) :
    Prop :=
  ∀ before, ∃ said, (program.run before).2.1 = before.1 ++ said ∧
    Talk policy items before.1 said (program.run before).1.isOk

namespace Says

variable {policy : Policy (StateM σ) Binary64} {items more : List Item}

theorem of_silent
    {program : StateM (List (Request Binary64) × σ) (Except Fault β)}
    (hsilent : Silent program) : Says policy [] program := by
  intro before
  refine ⟨[], by rw [hsilent before, List.append_nil], ?_⟩
  cases (program.run before).1 with
  | ok value => exact .done before.1
  | error fault => exact .failed [] before.1

theorem of_fault (fault : Fault) :
    Says policy items (pure (.error fault) :
      StateM (List (Request Binary64) × σ) (Except Fault β)) :=
  fun before => ⟨[], (List.append_nil _).symm, .failed items before.1⟩

theorem after_silent
    {first : StateM (List (Request Binary64) × σ) β}
    {rest : β → StateM (List (Request Binary64) × σ) (Except Fault γ)}
    (hsilent : Silent first) (hrest : ∀ value, Says policy items (rest value)) :
    Says policy items (first >>= rest) := by
  intro before
  cases hrun : first.run before with
  | mk value middle =>
      have hsame : middle.1 = before.1 := by rw [← hsilent before, hrun]
      rw [run_bind_eq hrun, ← hsame]
      exact hrest value middle

theorem ask (request : Request Binary64) :
    Says policy [.request request] (policy.recorded.ask request) := by
  intro before
  refine ⟨[request], rfl, .request ?_⟩
  cases ((policy.recorded.ask request).run before).1 with
  | ok value => exact .done _
  | error fault => exact .failed [] _

/-- What follows is said after a success, and a fault is passed on. -/
theorem bind {first : StateM (List (Request Binary64) × σ) (Except Fault β)}
    {rest : Except Fault β →
      StateM (List (Request Binary64) × σ) (Except Fault γ)}
    (hfirst : Says policy items first)
    (hfault : ∀ fault, rest (.error fault) = pure (.error fault))
    (hrest : ∀ before value after, first.run before = (.ok value, after) →
      Says policy more (rest (.ok value))) :
    Says policy (items ++ more) (first >>= rest) := by
  intro before
  obtain ⟨said, hsaid, htalk⟩ := hfirst before
  cases hrun : first.run before with
  | mk result middle =>
      rw [hrun] at hsaid htalk
      rw [run_bind_eq hrun]
      cases result with
      | error fault =>
          rw [hfault]
          exact ⟨said, hsaid, htalk.abandon more⟩
      | ok value =>
          obtain ⟨later, hlater, htalks⟩ := hrest before value middle hrun middle
          rw [hsaid] at hlater htalks
          exact ⟨said ++ later, by rw [hlater, List.append_assoc],
            htalk.append htalks⟩

theorem then_silent
    {first : StateM (List (Request Binary64) × σ) (Except Fault β)}
    {rest : Except Fault β →
      StateM (List (Request Binary64) × σ) (Except Fault γ)}
    (hfirst : Says policy items first)
    (hfault : ∀ fault, rest (.error fault) = pure (.error fault))
    (hrest : ∀ value, Silent (rest (.ok value))) :
    Says policy items (first >>= rest) := by
  have hboth : Says policy (items ++ []) (first >>= rest) :=
    hfirst.bind hfault fun _ value _ _ => of_silent (hrest value)
  rwa [List.append_nil] at hboth

theorem silent_then
    {first : StateM (List (Request Binary64) × σ) (Except Fault β)}
    {rest : Except Fault β →
      StateM (List (Request Binary64) × σ) (Except Fault γ)}
    (hsilent : Silent first)
    (hfault : ∀ fault, rest (.error fault) = pure (.error fault))
    (hrest : ∀ before value after, first.run before = (.ok value, after) →
      Says policy items (rest (.ok value))) :
    Says policy items (first >>= rest) :=
  (of_silent hsilent).bind hfault hrest

theorem ask_then (request : Request Binary64)
    {rest : Except Fault String →
      StateM (List (Request Binary64) × σ) (Except Fault γ)}
    (hfault : ∀ fault, rest (.error fault) = pure (.error fault))
    (hrest : ∀ answer, Says policy items (rest (.ok answer))) :
    Says policy (.request request :: items)
      (policy.recorded.ask request >>= rest) :=
  (ask request).bind hfault fun _ answer _ _ => hrest answer

theorem episode {setup : Plan Binary64} {number allotted : Nat}
    {gateway : Gateway Binary64} {ctx : Context Binary64}
    {dataset : Dataset Binary64}
    {rest : Except Fault (Time Binary64) × Simulation Binary64 →
      StateM (List (Request Binary64) × σ) (Except Fault γ)}
    (hfault : ∀ fault final,
      rest (.error fault, final) = pure (.error fault))
    (hrest : ∀ clock final, Says policy more (rest (.ok clock, final))) :
    Says policy (.episode setup number :: more)
      (Episode.run allotted policy.recorded setup.ending gateway.reset
        (ctx.startEpisode number dataset.jobs dataset.tasks) >>= rest) := by
  intro before
  cases hrun : (Episode.run allotted policy.recorded setup.ending gateway.reset
      (ctx.startEpisode number dataset.jobs dataset.tasks)).run before with
  | mk ended middle =>
      obtain ⟨result, final⟩ := ended
      obtain ⟨turns, last, said, hturns, hsaid, hrounds, hend⟩ :=
        Moment.rounds_of_episode hrun
      rw [run_bind_eq hrun]
      rcases hend with ⟨hok, hends, hmiddle⟩ | ⟨hfailed, tail, htail, hbreaks⟩
      · cases result with
        | error fault => cases hok
        | ok clock =>
            obtain ⟨later, hlater, htalk⟩ := hrest clock final middle
            rw [hmiddle, hsaid] at hlater htalk
            exact ⟨said ++ later, by rw [hlater, List.append_assoc],
              .episode hturns hends hsaid hrounds htalk⟩
      · cases result with
        | ok clock => cases hfailed
        | error fault =>
            rw [hfault]
            refine ⟨said ++ tail, ?_,
              .interrupted hturns hsaid hrounds hbreaks⟩
            exact htail.trans (by rw [hsaid, List.append_assoc])

end Says

/-! ## Files -/

theorem Report.silent_writeInto (host : Host (StateM σ))
    (directory name content : String) :
    Silent (writeInto host.recorded directory name content :
      StateM (List (Request Binary64) × σ) (Except Fault Unit)) := by
  refine (silent_unrecorded _).bind fun made => ?_
  split
  · refine (silent_unrecorded _).bind fun written => ?_
    split <;> exact silent_pure _
  · exact silent_pure _

theorem Report.silent_writeAllSeries (host : Host (StateM σ))
    (directory : String) (items : List (String × List Binary64)) :
    Silent (writeAllSeries host.recorded directory items :
      StateM (List (Request Binary64) × σ) (Except Fault Unit)) := by
  induction items with
  | nil => exact silent_pure _
  | cons item rest ih =>
      refine (silent_writeInto host directory item.1 _).bind fun written => ?_
      cases written with
      | error fault => exact silent_pure _
      | ok _ => exact ih

theorem Report.silent_create (host : Host (StateM σ)) (directory : String) :
    Silent (create host.recorded directory :
      StateM (List (Request Binary64) × σ) (Except Fault Report)) := by
  refine (silent_writeInto host directory tableName _).bind fun written => ?_
  cases written <;> exact silent_pure _

theorem Report.silent_record (host : Host (StateM σ)) (report : Report)
    (info : RunInfo) (metrics : EpisodeMetrics Binary64)
    (unplaced nanoseconds : Nat) :
    Silent (record host.recorded report info metrics unplaced nanoseconds :
      StateM (List (Request Binary64) × σ) (Except Fault Report)) := by
  refine (silent_writeInto host report.directory tableName _).bind
    fun written => ?_
  cases written with
  | error fault => exact silent_pure _
  | ok _ =>
      refine (silent_writeAllSeries host report.directory _).bind
        fun written => ?_
      cases written <;> exact silent_pure _

theorem Dataset.silent_load (host : Host (StateM σ))
    (plan : DatasetPlan Binary64) :
    Silent (load host.recorded plan : StateM (List (Request Binary64) × σ)
      (Except Fault (Dataset Binary64))) :=
  (silent_unrecorded _).bind fun _ =>
    (silent_unrecorded _).bind fun _ => silent_pure _

theorem Dataset.name_of_ofContents {plan : DatasetPlan Binary64}
    {jobs tasks : Option ByteArray} {dataset : Dataset Binary64}
    (hload : ofContents plan jobs tasks = .ok dataset) :
    dataset.name = Location.displayName plan.path := by
  unfold ofContents at hload
  obtain ⟨jobRows, _, hload⟩ := bind_ok hload
  obtain ⟨taskRows, _, hload⟩ := bind_ok hload
  split at hload
  next => cases hload; rfl
  next => cases hload

/-! ## The loops of an experiment -/

namespace Experiment

variable {policy : Policy (StateM σ) Binary64} {host : Host (StateM σ)}

theorem says_episode (course : Course) (episode : Nat)
    (gateway : Gateway Binary64) (ctx : Context Binary64) (report : Report) :
    Says policy (Item.closed course.plan episode)
      (runEpisode host.recorded policy.recorded course episode gateway ctx
        report) := by
  refine .after_silent (silent_unrecorded _) fun started => ?_
  refine .episode (fun _ _ => rfl) fun clock final => ?_
  refine .ask_then _ (fun _ => rfl) fun _ => ?_
  refine .ask_then _ (fun _ => rfl) fun _ => ?_
  refine .of_silent ((silent_unrecorded _).bind fun stopped => ?_)
  split
  next => exact silent_pure _
  next metrics _ =>
    refine (report.silent_record host _ _ _ _).bind fun recorded => ?_
    cases recorded <;> exact silent_pure _

theorem says_episodes (course : Course) (left episode : Nat)
    (gateway : Gateway Binary64) (ctx : Context Binary64) (report : Report) :
    Says policy ((List.range' episode left).flatMap (Item.closed course.plan))
      (runEpisodes host.recorded policy.recorded course left episode gateway
        ctx report) := by
  induction left generalizing episode gateway ctx report with
  | zero => exact .of_silent (silent_pure _)
  | succ left ih =>
      rw [List.range'_succ, List.flatMap_cons]
      refine .bind (says_episode course episode gateway ctx report)
        (fun _ => rfl) ?_
      rintro _ ⟨gateway, ctx, report⟩ _ _
      exact ih (episode + 1) gateway ctx report

theorem says_seed (allotted : Nat) {plan : Plan Binary64}
    {dataset : Dataset Binary64} (gatewayMips : Binary64) (seed : Nat)
    (report : Report)
    (hname : dataset.name = Location.displayName plan.dataset.path) :
    Says policy (Item.ofSeed plan seed)
      (runSeed host.recorded policy.recorded allotted plan dataset
        (Topology.ofPlanUnchecked plan.topology) gatewayMips seed report) := by
  unfold runSeed Item.ofSeed Item.opening
  rw [← hname]
  refine .ask_then _ (fun _ => rfl) fun _ => ?_
  rw [List.range_eq_range']
  exact .then_silent (says_episodes _ _ 0 _ _ report) (fun _ => rfl)
    fun _ => silent_pure _

theorem says_seeds (allotted : Nat) {plan : Plan Binary64}
    {dataset : Dataset Binary64} (gatewayMips : Binary64) (seeds : List Nat)
    (results : List SeedResult) (report : Report)
    (hname : dataset.name = Location.displayName plan.dataset.path) :
    Says policy (seeds.flatMap (Item.ofSeed plan))
      (runSeeds host.recorded policy.recorded allotted plan dataset
        (Topology.ofPlanUnchecked plan.topology) gatewayMips seeds results
        report) := by
  induction seeds generalizing results report with
  | nil => exact .of_silent (silent_pure _)
  | cons seed rest ih =>
      rw [List.flatMap_cons]
      refine .bind (says_seed allotted gatewayMips seed report hname)
        (fun _ => rfl) ?_
      rintro _ ⟨result, report⟩ _ _
      exact ih (results ++ [result]) report

theorem says_setup (allotted : Nat) (plan : Plan Binary64)
    (results : List SeedResult) (report : Report) :
    Says policy (Item.ofSetup plan)
      (runSetup host.recorded policy.recorded allotted plan results
        report) := by
  refine .silent_then (Dataset.silent_load host _) (fun _ => rfl) ?_
  intro before dataset after hload
  have hname : dataset.name = Location.displayName plan.dataset.path :=
    Dataset.name_of_ofContents (congrArg Prod.fst hload)
  dsimp only
  cases hplan : Topology.ofPlan plan.topology with
  | error fault => exact .of_fault _
  | ok topology =>
      obtain rfl := (Topology.ofPlan_ok hplan).1
      cases hgateway : (Topology.ofPlanUnchecked plan.topology).gateway? with
      | none => simp only [hgateway]; exact .of_fault _
      | some gateway =>
          simp only [hgateway]
          exact says_seeds allotted gateway.mips plan.experiment.seeds results
            report hname

theorem says_setups (allotted : Nat) (plans : List (Plan Binary64))
    (results : List SeedResult) (report : Report) :
    Says policy (plans.flatMap Item.ofSetup)
      (runSetups host.recorded policy.recorded allotted plans results
        report) := by
  induction plans generalizing results report with
  | nil => exact .of_silent (silent_pure _)
  | cons plan rest ih =>
      rw [List.flatMap_cons]
      refine .bind (says_setup allotted plan results report) (fun _ => rfl) ?_
      rintro _ ⟨results, report⟩ _ _
      exact ih results report

/-- Whatever the service answers and the surroundings do, an experiment talks
along its agenda.  What it says is the beginning of what the agenda allows for,
and all of it if no fault comes up. -/
theorem requests_in_order (host : Host (StateM σ))
    (policy : Policy (StateM σ) Binary64) (allotted : Nat)
    (plan : Plan Binary64) (memory : σ) :
    let ended := (run host.recorded policy.recorded allotted plan).run
      ([], memory)
    Talk policy (agenda plan) [] ended.2.1 ended.1.isOk ∧
      ∃ all, Protocol (agenda plan) all ∧ ended.2.1 <+: all ∧
        (ended.1.isOk = true → ended.2.1 = all) := by
  have hsays : Says policy (agenda plan)
      (run host.recorded policy.recorded allotted plan) := by
    refine .silent_then (Report.silent_create host _) (fun _ => rfl) ?_
    intro _ report _ _
    exact says_setups allotted plan.setups [] report
  obtain ⟨said, hsaid, htalk⟩ := hsays ([], memory)
  rw [List.nil_append] at hsaid
  subst hsaid
  exact ⟨htalk, htalk.protocol⟩

end Experiment
end FogDispatch
