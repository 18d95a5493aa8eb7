import FogDispatch.Experiment
import FogDispatch.Proofs.Conservation
import FogDispatch.Proofs.Conversation
import FogDispatch.Proofs.Journal

/-!
# The report of a sweep

An episode gets its row once the service has let it go by, and not before.  The
loops of an experiment take the points of the sweep in order, so whenever a run
ends, its table holds the rows of a first part of the sweep.
-/

namespace FogDispatch

/-! ## Points of a sweep -/

/-- One choice on every axis but that of the episodes. -/
structure Trial where
  dataset : String
  fogNodes : Nat
  pair : StrategyPair
  seed : Nat
  deriving DecidableEq

namespace Trial

variable (plan : Plan Binary64) (trial : Trial)

def setup : Plan Binary64 :=
  plan.atPoint trial.dataset trial.fogNodes trial.pair

def topology : Topology Binary64 :=
  Topology.ofPlanUnchecked (trial.setup plan).topology

/-- What the rows of a trial say about it. -/
def info : RunInfo where
  dataset := Location.displayName trial.dataset
  fogNodes := ((trial.topology plan).featuresOf .fog).length
  placement := trial.pair.kind
  policy := trial.pair.policy
  seed := trial.seed

def announcement : Setup Binary64 :=
  Setup.ofPlan (trial.setup plan) (Location.displayName trial.dataset)
    (trial.topology plan) trial.seed

end Trial

/-- Datasets, counts of fog nodes, strategies and seeds, each in their order. -/
def Plan.trials (plan : Plan Binary64) : List Trial :=
  (plan.datasetAxis ×ˢ plan.fogAxis ×ˢ plan.strategyAxis ×ˢ
    plan.experiment.seeds).map fun (dataset, fogNodes, pair, seed) =>
      ⟨dataset, fogNodes, pair, seed⟩

/-- All trials, with all their episodes. -/
def Plan.sweep (plan : Plan Binary64) : List (Trial × Nat) :=
  plan.trials ×ˢ List.range plan.experiment.episodes

theorem Plan.setups_eq (plan : Plan Binary64) :
    plan.setups = (plan.datasetAxis ×ˢ plan.fogAxis ×ˢ plan.strategyAxis).map
      fun (path, fogNodes, pair) => plan.atPoint path fogNodes pair := by
  simp only [setups, SProd.sprod, List.product, List.map_flatMap, List.map_map]
  rfl

/-- The trials of some setups. -/
def Plan.trialsOf (plan : Plan Binary64)
    (places : List (String × Nat × StrategyPair)) : List Trial :=
  places.flatMap fun (path, fogNodes, pair) =>
    plan.experiment.seeds.map (Trial.mk path fogNodes pair)

theorem Plan.trials_eq (plan : Plan Binary64) :
    plan.trials = plan.trialsOf
      (plan.datasetAxis ×ˢ plan.fogAxis ×ˢ plan.strategyAxis) := by
  simp only [trials, trialsOf, SProd.sprod, List.product, List.map_flatMap,
    List.flatMap_assoc, List.flatMap_map, List.map_map]
  rfl

theorem Plan.trialsOf_cons_product {β : Type} (plan : Plan Binary64)
    (path : String) (fogNodes : Nat) (pair : StrategyPair)
    (rest : List (String × Nat × StrategyPair)) (episodes : List β) :
    plan.trialsOf ((path, fogNodes, pair) :: rest) ×ˢ episodes =
      plan.experiment.seeds.map (Trial.mk path fogNodes pair) ×ˢ episodes ++
        plan.trialsOf rest ×ˢ episodes :=
  List.flatMap_append

/-- The table of a report holds the rows of the points that are done, and they
are the points that the service has let go by. -/
structure Standing (plan : Plan Binary64) (directory : String)
    (Heard : Option (Setup Binary64) → Prop) (journal : List Entry)
    (rows : List (EpisodeRow Binary64)) (done : List (Trial × Nat)) :
    Prop where
  table : Entry.content? (Location.join directory Report.tableName) journal =
    some (tableText rows)
  rows : rows.map (fun row => (row.info, row.episode)) =
    done.map fun (trial, episode) => (trial.info plan, episode)
  finished : (Told.of journal).finished =
    done.map fun (trial, episode) =>
      (some (trial.announcement plan), some episode)
  heard : Heard (Told.of journal).setup

namespace Standing

variable {plan : Plan Binary64} {directory : String}
  {Heard Heard' : Option (Setup Binary64) → Prop} {journal more : List Entry}
  {rows : List (EpisodeRow Binary64)} {done : List (Trial × Nat)}

theorem weaken (hstanding : Standing plan directory Heard journal rows done)
    (hheard : ∀ setup, Heard setup → Heard' setup) :
    Standing plan directory Heard' journal rows done :=
  { hstanding with heard := hheard _ hstanding.heard }

/-- Entries that neither write the table nor let an episode go by. -/
theorem extend (hstanding : Standing plan directory Heard journal rows done)
    (hcontent : ∀ content, more.foldl (Entry.overwrites
      (Location.join directory Report.tableName)) content = content)
    (hfinished : (more.foldl Told.hear (Told.of journal)).finished =
      (Told.of journal).finished)
    (hheard : Heard' (more.foldl Told.hear (Told.of journal)).setup) :
    Standing plan directory Heard' (journal ++ more) rows done where
  table := by
    rw [Entry.content?_append, hcontent]
    exact hstanding.table
  rows := hstanding.rows
  finished := by
    rw [Told.of_append, hfinished]
    exact hstanding.finished
  heard := by
    rw [Told.of_append]
    exact hheard

theorem elsewhere (hstanding : Standing plan directory Heard journal rows done)
    (helsewhere : Entry.Elsewhere (Location.join directory Report.tableName)
      more) :
    Standing plan directory Heard (journal ++ more) rows done := by
  apply hstanding.extend helsewhere.content
  · rw [helsewhere.told]
  · rw [helsewhere.told]
    exact hstanding.heard

theorem save (hstanding : Standing plan directory Heard journal rows done)
    (episode : Nat) (answered : Bool) :
    Standing plan directory Heard
      (journal ++ [.asked (.saveModel episode) answered]) rows done :=
  hstanding.extend (fun _ => rfl) rfl hstanding.heard

theorem announce (hstanding : Standing plan directory Heard journal rows done)
    (data : Setup Binary64) (answered : Bool) :
    Standing plan directory (· = some data)
      (journal ++ [.asked (.setup data) answered]) rows done :=
  hstanding.extend (fun _ => rfl) rfl rfl

/-- A point is done once the service lets it go by and its row is written. -/
theorem enter {trial : Trial} {episode : Nat}
    (hstanding : Standing plan directory
      (· = some (trial.announcement plan)) journal rows done)
    (hsaved : (Told.of journal).episode = some episode)
    {row : EpisodeRow Binary64} (hinfo : row.info = trial.info plan)
    (hepisode : row.episode = episode)
    (helsewhere : Entry.Elsewhere (Location.join directory Report.tableName)
      more) :
    Standing plan directory (· = some (trial.announcement plan))
      (journal ++ [.asked .nextEpisode true] ++
        .wrote (Location.join directory Report.tableName)
          (tableText (rows ++ [row])) :: more)
      (rows ++ [row]) (done ++ [(trial, episode)]) where
  table := by
    rw [Entry.content?_append, List.foldl_cons, helsewhere.content,
      Entry.overwrites, if_pos rfl]
  rows := by
    rw [List.map_append, hstanding.rows, List.map_append, List.map_singleton,
      List.map_singleton, hinfo, hepisode]
  finished := by
    have hheard : (Told.of journal).setup = some (trial.announcement plan) :=
      hstanding.heard
    rw [Told.of_append, List.foldl_cons, helsewhere.told, Told.of_append,
      List.map_append, ← hstanding.finished]
    simp only [List.map_singleton, ← hheard, ← hsaved]
    rfl
  heard := by
    rw [Told.of_append, List.foldl_cons, helsewhere.told, Told.of_append]
    exact hstanding.heard

end Standing

/-- A program writes the rows of a first part of some points, of all of them if
it succeeds. -/
def Enters {σ β : Type} (plan : Plan Binary64) (directory : String)
    (Heard : Option (Setup Binary64) → Prop) (points : List (Trial × Nat))
    (Yields : β → List (EpisodeRow Binary64) → Prop)
    (rows : List (EpisodeRow Binary64))
    (program : StateM (List Entry × σ) (Except Fault β)) : Prop :=
  ∀ before done, Standing plan directory Heard before.1 rows done →
    ∃ after said, said <+: points ∧
      Standing plan directory Heard (program.run before).2.1 after
        (done ++ said) ∧
      ∀ value, (program.run before).1 = .ok value →
        said = points ∧ Yields value after

/-- What a program leaves behind that breaks off. -/
theorem Standing.broken {plan : Plan Binary64} {directory : String}
    {Heard : Option (Setup Binary64) → Prop} {journal : List Entry}
    {rows : List (EpisodeRow Binary64)} {done points : List (Trial × Nat)}
    {β : Type} {Yields : β → List (EpisodeRow Binary64) → Prop}
    {fault : Fault}
    (hstanding : Standing plan directory Heard journal rows done) :
    ∃ after said, said <+: points ∧
      Standing plan directory Heard journal after (done ++ said) ∧
      ∀ value, (.error fault : Except Fault β) = .ok value →
        said = points ∧ Yields value after := by
  refine ⟨rows, [], List.nil_prefix, ?_, nofun⟩
  rw [List.append_nil]
  exact hstanding

namespace Enters

variable {σ β γ : Type} {plan : Plan Binary64} {directory : String}
  {Heard : Option (Setup Binary64) → Prop} {points more : List (Trial × Nat)}
  {Yields : β → List (EpisodeRow Binary64) → Prop}
  {Yields' : γ → List (EpisodeRow Binary64) → Prop}
  {rows : List (EpisodeRow Binary64)}

theorem pure {value : β} (hyields : Yields value rows) :
    Enters plan directory Heard [] Yields rows
      (Pure.pure (.ok value) :
        StateM (List Entry × σ) (Except Fault β)) := by
  intro before done hstanding
  refine ⟨rows, [], List.prefix_rfl, ?_, ?_⟩
  · rw [List.append_nil]
    exact hstanding
  · rintro _ hvalue
    cases hvalue
    exact ⟨rfl, hyields⟩

theorem bind {first : StateM (List Entry × σ) (Except Fault β)}
    {rest : Except Fault β → StateM (List Entry × σ) (Except Fault γ)}
    (hfirst : Enters plan directory Heard points Yields rows first)
    (hfault : ∀ fault, rest (.error fault) = Pure.pure (.error fault))
    (hrest : ∀ value after, Yields value after →
      Enters plan directory Heard more Yields' after (rest (.ok value))) :
    Enters plan directory Heard (points ++ more) Yields' rows
      (first >>= rest) := by
  intro before done hstanding
  obtain ⟨after, said, hsaid, hafter, hvalue⟩ := hfirst before done hstanding
  cases hrun : first.run before with
  | mk result middle =>
      rw [hrun] at hafter hvalue
      rw [run_bind_eq hrun]
      cases result with
      | error fault =>
          rw [hfault]
          exact ⟨after, said, hsaid.trans (List.prefix_append points more),
            hafter, nofun⟩
      | ok value =>
          obtain ⟨rfl, hyields⟩ := hvalue value rfl
          obtain ⟨last, later, hlater, hlast, hend⟩ :=
            hrest value after hyields middle _ hafter
          refine ⟨last, said ++ later,
            (List.prefix_append_right_inj said).mpr hlater, ?_, ?_⟩
          · rw [← List.append_assoc]
            exact hlast
          · intro result hresult
            obtain ⟨rfl, hdone⟩ := hend result hresult
            exact ⟨rfl, hdone⟩

theorem mono {Weaker : β → List (EpisodeRow Binary64) → Prop}
    {program : StateM (List Entry × σ) (Except Fault β)}
    (henters : Enters plan directory Heard points Yields rows program)
    (hweaker : ∀ value after, Yields value after → Weaker value after) :
    Enters plan directory Heard points Weaker rows program := by
  intro before done hstanding
  obtain ⟨after, said, hsaid, hafter, hvalue⟩ := henters before done hstanding
  exact ⟨after, said, hsaid, hafter, fun value hok =>
    (hvalue value hok).imp_right (hweaker value after)⟩

theorem from_standing {Heard' : Option (Setup Binary64) → Prop}
    {program : StateM (List Entry × σ) (Except Fault β)}
    {before : List Entry × σ} {done : List (Trial × Nat)}
    (henters : Enters plan directory Heard points Yields rows program)
    (hstanding : Standing plan directory Heard before.1 rows done)
    (hheard : ∀ setup, Heard setup → Heard' setup) :
    ∃ after said, said <+: points ∧
      Standing plan directory Heard' (program.run before).2.1 after
        (done ++ said) ∧
      ∀ value, (program.run before).1 = .ok value →
        said = points ∧ Yields value after := by
  obtain ⟨after, said, hsaid, hafter, hvalue⟩ := henters before done hstanding
  exact ⟨after, said, hsaid, hafter.weaken hheard, hvalue⟩

/-- What leaves the journal alone comes first. -/
theorem after_aside {first : StateM σ β}
    {rest : β → StateM (List Entry × σ) (Except Fault γ)}
    (hrest : ∀ value,
      Enters plan directory Heard points Yields' rows (rest value)) :
    Enters plan directory Heard points Yields' rows (aside first >>= rest) :=
  fun before done hstanding =>
    hrest (first.run before.2).1 (before.1, (first.run before.2).2) done
      hstanding

end Enters

/-! ## The loops of an experiment -/

theorem Context.getLast?_finishEpisode (ctx : Context Binary64)
    (clock : Time Binary64) :
    ∃ metrics, (ctx.finishEpisode clock).metrics.finished.getLast? =
        some metrics ∧ metrics.episode = ctx.metrics.current.episode := by
  rw [ctx.finishEpisode_finished, List.getLast?_concat]
  exact ⟨_, rfl, (ctx.sameEpisode_releaseFinished clock).episode⟩

namespace Experiment

variable {σ : Type} {policy : Policy (StateM σ) Binary64}
  {host : Host (StateM σ)} {plan : Plan Binary64} {directory : String}

theorem run_ask (policy : Policy (StateM σ) Binary64)
    (request : Request Binary64) (journal : List Entry) (memory : σ) :
    ∃ answer left, (policy.journaled.ask request).run (journal, memory) =
      (answer, (journal ++ [.asked request answer.isOk], left)) :=
  ⟨_, _, rfl⟩

theorem run_nanoseconds (host : Host (StateM σ)) (journal : List Entry)
    (memory : σ) :
    ∃ now left, host.journaled.nanoseconds.run (journal, memory) =
      (now, (journal, left)) :=
  ⟨_, _, rfl⟩

theorem run_load (host : Host (StateM σ)) (plan : DatasetPlan Binary64)
    (journal : List Entry) (memory : σ) :
    ∃ loaded left, (Dataset.load host.journaled plan).run (journal, memory) =
        (loaded, (journal, left)) ∧
      ∀ dataset, loaded = .ok dataset →
        dataset.name = Location.displayName plan.path :=
  ⟨_, _, rfl, fun _ hload => Dataset.name_of_ofContents hload⟩

/-- The requests of an episode leave the files alone. -/
theorem run_episode (policy : Policy (StateM σ) Binary64) (path : String)
    (allotted : Nat) (ending : EndCondition Binary64)
    (gateway : Gateway Binary64) (ctx : Context Binary64)
    (journal : List Entry) (memory : σ) :
    ∃ ended more left,
      (Episode.run allotted policy.journaled ending gateway ctx).run
          (journal, memory) = (ended, (journal ++ more, left)) ∧
      ctx.metrics.SameEpisode ended.2.context.metrics ∧
      Entry.Elsewhere path more := by
  have hkeeps : Keeps (fun memory : List Entry × σ =>
      ∃ more, memory.1 = journal ++ more ∧ Entry.Elsewhere path more)
      (fun ended => ctx.metrics.SameEpisode ended.2.context.metrics)
      (Episode.run allotted policy.journaled ending gateway ctx) := by
    apply Episode.run_keeps
    rintro request hdecisions ⟨_, memory⟩ ⟨more, rfl, helsewhere⟩
    obtain ⟨answer, left, hrun⟩ :=
      run_ask policy request (journal ++ more) memory
    rw [hrun]
    exact ⟨trivial, more ++ [.asked request answer.isOk],
      List.append_assoc _ _ _,
      helsewhere.append (.asked hdecisions answer.isOk)⟩
  obtain ⟨hsame, more, hmore, helsewhere⟩ := hkeeps (journal, memory)
    ⟨[], (List.append_nil _).symm, .nil path⟩
  exact ⟨_, more, _, Prod.ext rfl (Prod.ext hmore rfl), hsame, helsewhere⟩

theorem enters_episode (course : Course) {trial : Trial}
    (hinfo : course.info = trial.info plan) (episode : Nat)
    (gateway : Gateway Binary64) (ctx : Context Binary64)
    (rows : List (EpisodeRow Binary64)) :
    Enters plan directory (· = some (trial.announcement plan))
      [(trial, episode)]
      (fun value after => value.2.2 = ⟨directory, after⟩ ∧
        value.2.1.metrics.finished.length = ctx.metrics.finished.length + 1)
      rows
      (runEpisode host.journaled policy.journaled course episode gateway ctx
        ⟨directory, rows⟩) := by
  refine .after_aside fun started => ?_
  rintro ⟨journal, memory⟩ done hstanding
  obtain ⟨⟨result, final⟩, more, left, hrun, hsame, helsewhere⟩ := run_episode
    policy (Location.join directory Report.tableName) course.allotted
    course.plan.ending gateway.reset
    (ctx.startEpisode episode course.dataset.jobs course.dataset.tasks)
    journal memory
  have hplayed := hstanding.elsewhere helsewhere
  rw [run_bind_eq hrun]
  cases result with
  | error fault => exact Standing.broken hplayed
  | ok clock =>
      obtain ⟨saved, left, hsave⟩ :=
        run_ask policy (.saveModel episode) (journal ++ more) left
      -- The model is saved before the service moves on, so the journal names
      -- the episode at that point.
      have hstanding := hplayed.save episode saved.isOk
      have hsaved : (Told.of (journal ++ more ++
          [.asked (.saveModel episode) saved.isOk])).episode =
            some episode := by
        rw [Told.of_append]
        rfl
      dsimp only
      rw [run_bind_eq hsave]
      generalize journal ++ more ++ [_] = journal at *
      cases saved with
      | error fault => exact Standing.broken hstanding
      | ok _ =>
          obtain ⟨moved, left, hmove⟩ :=
            run_ask policy .nextEpisode journal left
          dsimp only
          rw [run_bind_eq hmove]
          cases moved with
          | error fault =>
              exact Standing.broken
                (hstanding.elsewhere ⟨fun _ => rfl, fun _ => rfl⟩)
          | ok _ =>
              obtain ⟨metrics, hlast, hnumber⟩ :=
                final.context.getLast?_finishEpisode clock
              have hepisode : metrics.episode = episode :=
                hnumber.trans hsame.episode
              obtain ⟨stopped, left, hclock⟩ := run_nanoseconds host
                (journal ++ [.asked .nextEpisode true]) left
              obtain ⟨more, left, hrecord, helsewhere⟩ := Report.run_record
                host ⟨directory, rows⟩ (runEpisode.info course) metrics
                final.gateway.unplaced (stopped - started)
                (journal ++ [.asked .nextEpisode true]) left
              have hrow : (EpisodeRow.ofEpisode (runEpisode.info course) metrics
                  final.gateway.unplaced (stopped - started)).info =
                    trial.info plan := hinfo
              have hentered := hstanding.enter hsaved hrow hepisode helsewhere
              dsimp only [Except.isOk, Except.toBool]
              rw [run_bind_eq hclock, hlast]
              dsimp only
              rw [run_bind_eq hrecord]
              refine ⟨_, _, List.prefix_rfl, hentered, ?_⟩
              rintro _ ⟨⟩
              refine ⟨rfl, rfl, ?_⟩
              rw [final.context.finishEpisode_finished, List.length_append,
                hsame.finished]
              rfl

theorem enters_episodes (course : Course) {trial : Trial}
    (hinfo : course.info = trial.info plan) (left episode : Nat)
    (gateway : Gateway Binary64) (ctx : Context Binary64)
    (rows : List (EpisodeRow Binary64)) :
    Enters plan directory (· = some (trial.announcement plan))
      ((List.range' episode left).map (trial, ·))
      (fun value after => value.2 = ⟨directory, after⟩ ∧
        value.1.metrics.finished.length = ctx.metrics.finished.length + left)
      rows
      (runEpisodes host.journaled policy.journaled course left episode gateway
        ctx ⟨directory, rows⟩) := by
  induction left generalizing episode gateway ctx rows with
  | zero => exact .pure ⟨rfl, rfl⟩
  | succ left ih =>
      rw [List.range'_succ, List.map_cons]
      refine Enters.bind (enters_episode course hinfo episode gateway ctx rows)
        (fun _ => rfl) ?_
      rintro ⟨gateway, next, report⟩ after ⟨rfl, hlength⟩
      refine (ih (episode + 1) gateway next after).mono ?_
      rintro ⟨ended, _⟩ last ⟨rfl, hended⟩
      refine ⟨rfl, ?_⟩
      rw [hended, hlength]
      omega

theorem enters_seed (allotted : Nat) (trial : Trial)
    {dataset : Dataset Binary64} (gatewayMips : Binary64)
    (hname : dataset.name = Location.displayName trial.dataset)
    (rows : List (EpisodeRow Binary64)) :
    Enters plan directory (fun _ => True)
      ((List.range plan.experiment.episodes).map (trial, ·))
      (fun value after => value.2 = ⟨directory, after⟩ ∧
        (value.1.1, value.1.2.episodes) =
          (trial.info plan, plan.experiment.episodes))
      rows
      (runSeed host.journaled policy.journaled allotted (trial.setup plan)
        dataset (trial.topology plan) gatewayMips trial.seed
        ⟨directory, rows⟩) := by
  rintro ⟨journal, memory⟩ done hstanding
  obtain ⟨told, left, htell⟩ := run_ask policy
    (.setup (Setup.ofPlan (trial.setup plan)
      (Location.displayName trial.dataset) (trial.topology plan) trial.seed))
    journal memory
  have htold := hstanding.announce (trial.announcement plan) told.isOk
  unfold runSeed
  dsimp only
  rw [hname, run_bind_eq htell]
  cases told with
  | error fault => exact (htold.weaken fun _ _ => trivial).broken
  | ok _ =>
      refine Enters.from_standing ?_ htold fun _ _ => trivial
      rw [← List.append_nil ((List.range _).map _), List.range_eq_range']
      refine Enters.bind (enters_episodes _ rfl _ 0 _ _ rows) (fun _ => rfl) ?_
      rintro ⟨ctx, report⟩ after ⟨rfl, hlength⟩
      exact .pure ⟨rfl, Prod.ext rfl (hlength.trans (Nat.zero_add _))⟩

/-- What the results of trials say about them. -/
def reported (plan : Plan Binary64) (trials : List Trial) :
    List (RunInfo × Nat) :=
  trials.map fun trial => (trial.info plan, plan.experiment.episodes)

/-- Results with their numbers of episodes. -/
def counted (results : List SeedResult) : List (RunInfo × Nat) :=
  results.map fun result => (result.1, result.2.episodes)

theorem enters_seeds (allotted : Nat) {dataset : Dataset Binary64}
    {path : String} {fogNodes : Nat} {pair : StrategyPair}
    (gatewayMips : Binary64)
    (hname : dataset.name = Location.displayName path) (seeds : List Nat)
    (results : List SeedResult) (rows : List (EpisodeRow Binary64)) :
    Enters plan directory (fun _ => True)
      (seeds.map (Trial.mk path fogNodes pair) ×ˢ
        List.range plan.experiment.episodes)
      (fun value after => value.2 = ⟨directory, after⟩ ∧
        counted value.1 = counted results ++
          reported plan (seeds.map (Trial.mk path fogNodes pair)))
      rows
      (runSeeds host.journaled policy.journaled allotted
        (plan.atPoint path fogNodes pair) dataset
        (Topology.ofPlanUnchecked (plan.atPoint path fogNodes pair).topology)
        gatewayMips seeds results ⟨directory, rows⟩) := by
  induction seeds generalizing results rows with
  | nil => exact .pure ⟨rfl, (List.append_nil _).symm⟩
  | cons seed rest ih =>
      rw [List.map_cons, List.product_cons]
      refine Enters.bind
        (enters_seed allotted ⟨path, fogNodes, pair, seed⟩ gatewayMips hname
          rows) (fun _ => rfl) ?_
      rintro ⟨result, report⟩ after ⟨rfl, hresult⟩
      refine (ih (results ++ [result]) after).mono ?_
      rintro ⟨all, _⟩ last ⟨rfl, hall⟩
      refine ⟨rfl, ?_⟩
      rw [hall, counted, List.map_append, List.map_singleton, hresult,
        List.append_assoc]
      rfl

theorem enters_setup (allotted : Nat) (path : String) (fogNodes : Nat)
    (pair : StrategyPair) (results : List SeedResult)
    (rows : List (EpisodeRow Binary64)) :
    Enters plan directory (fun _ => True)
      (plan.experiment.seeds.map (Trial.mk path fogNodes pair) ×ˢ
        List.range plan.experiment.episodes)
      (fun value after => value.2 = ⟨directory, after⟩ ∧
        counted value.1 = counted results ++ reported plan
          (plan.experiment.seeds.map (Trial.mk path fogNodes pair)))
      rows
      (runSetup host.journaled policy.journaled allotted
        (plan.atPoint path fogNodes pair) results ⟨directory, rows⟩) := by
  rintro ⟨journal, memory⟩ done hstanding
  obtain ⟨loaded, left, hload, hname⟩ := run_load host
    (plan.atPoint path fogNodes pair).dataset journal memory
  unfold runSetup
  rw [run_bind_eq hload]
  cases loaded with
  | error fault => exact hstanding.broken
  | ok dataset =>
      dsimp only
      cases htopology : Topology.ofPlan
          (plan.atPoint path fogNodes pair).topology with
      | error fault => exact hstanding.broken
      | ok topology =>
          obtain rfl := (Topology.ofPlan_ok htopology).1
          cases hgateway : (Topology.ofPlanUnchecked
              (plan.atPoint path fogNodes pair).topology).gateway? with
          | none =>
              simp only [hgateway]
              exact hstanding.broken
          | some gateway =>
              simp only [hgateway]
              exact enters_seeds allotted gateway.mips (hname dataset rfl)
                plan.experiment.seeds results rows (journal, left) done
                hstanding

/-- The setups of places of the sweep, one behind the other. -/
theorem enters_setups (allotted : Nat)
    (places : List (String × Nat × StrategyPair)) (results : List SeedResult)
    (rows : List (EpisodeRow Binary64)) :
    Enters plan directory (fun _ => True)
      (plan.trialsOf places ×ˢ List.range plan.experiment.episodes)
      (fun value _ => counted value =
        counted results ++ reported plan (plan.trialsOf places))
      rows
      (runSetups host.journaled policy.journaled allotted
        (places.map fun (path, fogNodes, pair) =>
          plan.atPoint path fogNodes pair) results ⟨directory, rows⟩) := by
  induction places generalizing results rows with
  | nil => exact .pure (List.append_nil _).symm
  | cons place rest ih =>
      obtain ⟨path, fogNodes, pair⟩ := place
      rw [plan.trialsOf_cons_product path fogNodes pair rest]
      refine Enters.bind
        (enters_setup allotted path fogNodes pair results rows)
        (fun _ => rfl) ?_
      rintro ⟨all, _⟩ after ⟨rfl, hall⟩
      refine (ih all after).mono fun value _ hvalue => ?_
      rw [hvalue, hall, List.append_assoc]
      exact congrArg (counted results ++ ·) List.map_append.symm

end Experiment
end FogDispatch
