import FogDispatch.Proofs.Observations
import FogDispatch.Proofs.SweepReport

/-!
# The chronicle of an experiment

A journal of an experiment opens with an empty table and goes on with
announcements, with the requests of episodes, and with records: the table with a
new row, then the histories of the episode of that row.  The records follow the
sweep, and what a request shows comes from the devices of the trial that was
announced last.  Every program of an experiment adds such entries, so whenever a
run ends its journal is a chronicle of the first part of the sweep.
-/

namespace FogDispatch

/-- An episode of a trial with everything that a report says about it. -/
structure Record where
  trial : Trial
  metrics : EpisodeMetrics Binary64
  unplaced : Nat
  nanoseconds : Nat

namespace Record

variable (plan : Plan Binary64) (record : Record)

def point : Trial × Nat := (record.trial, record.metrics.episode)

def row : EpisodeRow Binary64 :=
  EpisodeRow.ofEpisode (record.trial.info plan) record.metrics record.unplaced
    record.nanoseconds

def histories : List (String × List Binary64) :=
  Report.series (record.trial.info plan) record.metrics

/-- The figures are those of a run of the episode, over tasks that nothing has
happened to, on the devices of the trial. -/
def Played {σ : Type} (policy : Policy (StateM (List Entry × σ)) Binary64)
    (allotted : Nat) : Prop :=
  ∃ (dataset : Dataset Binary64) (gateway : Gateway Binary64)
    (ctx : Context Binary64) (before after : List Entry × σ)
    (clock : Time Binary64) (final : Simulation Binary64),
    dataset.Fresh ∧
      dataset.name = Location.displayName record.trial.dataset ∧
      ctx.topology.reset = (record.trial.topology plan).reset ∧
      (Episode.run allotted policy plan.ending gateway.reset
        (ctx.startEpisode record.metrics.episode dataset.jobs
          dataset.tasks)).run before = ((.ok clock, final), after) ∧
      (final.context.finishEpisode clock).metrics.finished.getLast? =
        some record.metrics ∧
      final.gateway.unplaced = record.unplaced

end Record

def Report.of (plan : Plan Binary64) (records : List Record) : Report :=
  ⟨plan.outputDir, records.map (Record.row plan)⟩

/-- The journals of experiments, by the trial that was announced last and by the
records so far. -/
inductive Chronicle (plan : Plan Binary64) :
    Option Trial → List Record → List Entry → Prop
  | opened : Chronicle plan none []
      [.wrote (Location.join plan.outputDir Report.tableName) (tableText [])]
  | announced {told : Option Trial} {records : List Record}
      {journal : List Entry} (trial : Trial) (answered : Bool)
      (hearlier : Chronicle plan told records journal) :
      Chronicle plan (some trial) records
        (journal ++ [.asked (.setup (trial.announcement plan)) answered])
  | asked {trial : Trial} {records : List Record} {journal : List Entry}
      {request : Request Binary64} (answered : Bool)
      (hshows : request.Shows (trial.topology plan))
      (hearlier : Chronicle plan (some trial) records journal) :
      Chronicle plan (some trial) records
        (journal ++ [.asked request answered])
  | recorded {records : List Record} {journal : List Entry} (record : Record)
      (hearlier : Chronicle plan (some record.trial) records journal) :
      Chronicle plan (some record.trial) (records ++ [record])
        (journal ++
          .wrote (Location.join plan.outputDir Report.tableName)
            (tableText ((records ++ [record]).map (Record.row plan))) ::
          Report.entries plan.outputDir (record.histories plan))

variable {σ β γ : Type}

/-! ## The state of a sweep -/

/-- The journal is a chronicle of the episodes at some points, whose rows the
report has. -/
def Reached (policy : Policy (StateM (List Entry × σ)) Binary64)
    (allotted : Nat) (plan : Plan Binary64) (told : Option Trial)
    (done : List (Trial × Nat)) (report : Report)
    (memory : List Entry × σ) : Prop :=
  ∃ records, records.map Record.point = done ∧
    report = Report.of plan records ∧
    (∀ record ∈ records, record.Played plan policy allotted) ∧
    Chronicle plan told records memory.1

/-- The same, whatever was announced last. -/
def Stands (policy : Policy (StateM (List Entry × σ)) Binary64)
    (allotted : Nat) (plan : Plan Binary64) (done : List (Trial × Nat))
    (report : Report) (memory : List Entry × σ) : Prop :=
  ∃ told, Reached policy allotted plan told done report memory

/-- A program ends with a value, or it breaks off within the sweep. -/
def Ends (policy : Policy (StateM (List Entry × σ)) Binary64)
    (allotted : Nat) (plan : Plan Binary64)
    (After : β → List Entry × σ → Prop) (result : Except Fault β)
    (memory : List Entry × σ) : Prop :=
  match result with
  | .ok value => After value memory
  | .error _ => ∃ done report, done <+: plan.sweep ∧
      Stands policy allotted plan done report memory

section

variable {policy : Policy (StateM (List Entry × σ)) Binary64} {allotted : Nat}
  {plan : Plan Binary64} {told : Option Trial} {done : List (Trial × Nat)}
  {report : Report}

theorem Reached.stands (memory : List Entry × σ)
    (hreached : Reached policy allotted plan told done report memory) :
    Stands policy allotted plan done report memory :=
  ⟨told, hreached⟩

/-- A program that breaks off stays where it is. -/
theorem Leads.fault {Before : List Entry × σ → Prop}
    {After : β → List Entry × σ → Prop} {fault : Fault}
    (hstands : ∀ memory, Before memory →
      Stands policy allotted plan done report memory)
    (hdone : done <+: plan.sweep) :
    Leads Before (Ends policy allotted plan After)
      (Pure.pure (.error fault) :
        StateM (List Entry × σ) (Except Fault β)) :=
  .pure fun memory hbefore => ⟨done, report, hdone, hstands memory hbefore⟩

theorem Leads.andThen {Before : List Entry × σ → Prop}
    {Middle : β → List Entry × σ → Prop} {After : γ → List Entry × σ → Prop}
    {first : StateM (List Entry × σ) (Except Fault β)}
    {rest : Except Fault β → StateM (List Entry × σ) (Except Fault γ)}
    (hfirst : Leads Before (Ends policy allotted plan Middle) first)
    (hfault : ∀ fault, rest (.error fault) = Pure.pure (.error fault))
    (hrest : ∀ value, Leads (Middle value) (Ends policy allotted plan After)
      (rest (.ok value))) :
    Leads Before (Ends policy allotted plan After) (first >>= rest) := by
  refine hfirst.bind fun result => ?_
  cases result with
  | error fault =>
      rw [hfault]
      exact .pure fun _ hbroken => hbroken
  | ok value => exact hrest value

end

namespace Experiment

variable {policy : Policy (StateM σ) Binary64} {host : Host (StateM σ)}
  {allotted : Nat} {plan : Plan Binary64} {told : Option Trial}
  {trial : Trial} {done : List (Trial × Nat)} {report : Report}

theorem leads_aside (program : StateM σ β) :
    Leads (Reached policy.journaled allotted plan told done report)
      (fun _ => Reached policy.journaled allotted plan told done report)
      (aside program) :=
  fun _ hreached => hreached

theorem leads_ask {request : Request Binary64}
    (hshows : request.Shows (trial.topology plan)) :
    Leads (Reached policy.journaled allotted plan (some trial) done report)
      (fun _ => Reached policy.journaled allotted plan (some trial) done
        report)
      (policy.journaled.ask request) := by
  rintro ⟨journal, memory⟩ ⟨records, hpoints, hreport, hplayed, hchronicle⟩
  exact ⟨records, hpoints, hreport, hplayed, hchronicle.asked _ hshows⟩

theorem leads_announce (trial : Trial) :
    Leads (Stands policy.journaled allotted plan done report)
      (fun _ => Reached policy.journaled allotted plan (some trial) done
        report)
      (policy.journaled.ask (.setup (trial.announcement plan))) := by
  rintro ⟨journal, memory⟩
    ⟨told, records, hpoints, hreport, hplayed, hchronicle⟩
  exact ⟨records, hpoints, hreport, hplayed, hchronicle.announced trial _⟩

/-- An episode shows the service its trial and nothing else. -/
theorem leads_play {dataset : Dataset Binary64} (hdataset : dataset.Fresh)
    (gateway : Gateway Binary64) {ctx : Context Binary64}
    (hreset : ctx.topology.reset = (trial.topology plan).reset)
    (episode : Nat) :
    Leads (Reached policy.journaled allotted plan (some trial) done report)
      (fun ended memory =>
        ((ctx.startEpisode episode dataset.jobs dataset.tasks).Continues
            ended.2.context ∧
          ∃ before after,
            (Episode.run allotted policy.journaled plan.ending gateway.reset
              (ctx.startEpisode episode dataset.jobs dataset.tasks)).run
                before = (ended, after)) ∧
        Reached policy.journaled allotted plan (some trial) done report
          memory)
      (Episode.run allotted policy.journaled plan.ending gateway.reset
        (ctx.startEpisode episode dataset.jobs dataset.tasks)) := by
  have hask : ∀ request : Request Binary64,
      request.Shows (trial.topology plan) →
        Keeps (Reached policy.journaled allotted plan (some trial) done report)
          (fun _ => True) (policy.journaled.ask request) :=
    fun request hshows memory hreached =>
      ⟨trivial, leads_ask hshows memory hreached⟩
  intro memory hreached
  obtain ⟨hcontinues, hafter⟩ := Episode.run_continues hask
    (Simulation.fitting_atHome (trial.topology plan)) allotted plan.ending
    gateway.reset (ctx.startEpisode episode dataset.jobs dataset.tasks)
    (Simulation.start_atHome hdataset hreset episode) memory hreached
  exact ⟨⟨hcontinues, _, _, rfl⟩, hafter⟩

theorem leads_load (host : Host (StateM σ)) (source : DatasetPlan Binary64) :
    Leads (Stands policy.journaled allotted plan done report)
      (fun loaded memory =>
        (∀ dataset, loaded = .ok dataset → dataset.Fresh ∧
          dataset.name = Location.displayName source.path) ∧
        Stands policy.journaled allotted plan done report memory)
      (Dataset.load host.journaled source) :=
  fun _ hstands => ⟨fun _ hload => ⟨Dataset.ofContents_fresh hload,
    Dataset.name_of_ofContents hload⟩, hstands⟩

theorem leads_record {record : Record} (htrial : record.trial = trial)
    (hplayed : record.Played plan policy.journaled allotted)
    {info : RunInfo} (hinfo : info = trial.info plan) :
    Leads (Reached policy.journaled allotted plan (some trial) done report)
      (Ends policy.journaled allotted plan
        (Reached policy.journaled allotted plan (some trial)
          (done ++ [record.point])))
      (report.record host.journaled info record.metrics record.unplaced
        record.nanoseconds) := by
  rintro ⟨journal, memory⟩ ⟨records, rfl, rfl, hearlier, hchronicle⟩
  obtain ⟨left, hrecord⟩ := Report.run_record_eq host (Report.of plan records)
    info record.metrics record.unplaced record.nanoseconds journal memory
  rw [hrecord]
  subst htrial hinfo
  have hrows : records.map (Record.row plan) ++ [record.row plan] =
      (records ++ [record]).map (Record.row plan) := by simp
  refine ⟨records ++ [record], by simp, ?_, ?_, ?_⟩
  · exact congrArg (Report.mk plan.outputDir) hrows
  · simpa [or_imp, forall_and] using ⟨hearlier, hplayed⟩
  · have hrecorded := hchronicle.recorded record
    rw [← hrows] at hrecorded
    exact hrecorded

/-! ## The loops of an experiment -/

def courseOf (plan : Plan Binary64) (trial : Trial)
    (dataset : Dataset Binary64) (allotted : Nat) : Course :=
  ⟨trial.setup plan, dataset, trial.topology plan, trial.info plan, allotted⟩

theorem leads_episode {dataset : Dataset Binary64} (hdataset : dataset.Fresh)
    (hname : dataset.name = Location.displayName trial.dataset)
    (gateway : Gateway Binary64) {ctx : Context Binary64}
    (hreset : ctx.topology.reset = (trial.topology plan).reset)
    (episode : Nat) (hdone : done <+: plan.sweep) :
    Leads (Reached policy.journaled allotted plan (some trial) done report)
      (Ends policy.journaled allotted plan fun value memory =>
        value.2.1.topology.reset = (trial.topology plan).reset ∧
          Reached policy.journaled allotted plan (some trial)
            (done ++ [(trial, episode)]) value.2.2 memory)
      (runEpisode host.journaled policy.journaled
        (courseOf plan trial dataset allotted) episode gateway ctx report) := by
  refine (leads_aside _).bind fun started => ?_
  refine (leads_play hdataset gateway hreset episode).bind fun ended =>
    .of_and fun ⟨hcontinues, before, after, hran⟩ => ?_
  obtain ⟨result, final⟩ := ended
  cases result with
  | error fault => exact .fault Reached.stands hdone
  | ok clock =>
      refine (leads_ask (by trivial)).bind fun saved => ?_
      cases saved with
      | error fault => exact .fault Reached.stands hdone
      | ok _ =>
          refine (leads_ask (by trivial)).bind fun moved => ?_
          cases moved with
          | error fault => exact .fault Reached.stands hdone
          | ok _ =>
              refine (leads_aside _).bind fun stopped => ?_
              obtain ⟨metrics, hlast, hnumber⟩ :=
                final.context.getLast?_finishEpisode clock
              obtain rfl : metrics.episode = episode :=
                hnumber.trans hcontinues.metrics.episode
              have hplayed : (Record.mk trial metrics final.gateway.unplaced
                  (stopped - started)).Played plan policy.journaled allotted :=
                ⟨dataset, gateway, ctx, before, after, clock, final, hdataset,
                  hname, hreset, hran, hlast, rfl⟩
              have hafter : (final.context.finishEpisode clock).topology.reset =
                  (trial.topology plan).reset := by
                rw [Context.reset_finishEpisode, hcontinues.reset, ← hreset]
                exact Topology.reset_reset ctx.topology
              rw [hlast]
              exact (leads_record rfl hplayed rfl).andThen (fun _ => rfl)
                fun report => .pure fun _ hreached => ⟨hafter, hreached⟩

theorem leads_episodes {dataset : Dataset Binary64} (hdataset : dataset.Fresh)
    (hname : dataset.name = Location.displayName trial.dataset)
    (left episode : Nat) (gateway : Gateway Binary64)
    {ctx : Context Binary64}
    (hreset : ctx.topology.reset = (trial.topology plan).reset)
    (hdone : done ++ (List.range' episode left).map (trial, ·) <+:
      plan.sweep) :
    Leads (Reached policy.journaled allotted plan (some trial) done report)
      (Ends policy.journaled allotted plan fun value =>
        Reached policy.journaled allotted plan (some trial)
          (done ++ (List.range' episode left).map (trial, ·)) value.2)
      (runEpisodes host.journaled policy.journaled
        (courseOf plan trial dataset allotted) left episode gateway ctx
        report) := by
  induction left generalizing episode gateway ctx done report with
  | zero =>
      rw [List.range'_zero, List.map_nil, List.append_nil]
      exact .pure fun _ hreached => hreached
  | succ left ih =>
      rw [List.range'_succ, List.map_cons, List.append_cons] at hdone ⊢
      refine (leads_episode hdataset hname gateway hreset episode
        ((List.prefix_append done _).trans
          ((List.prefix_append _ _).trans hdone))).andThen (fun _ => rfl) ?_
      rintro ⟨gateway, next, report⟩
      exact .of_and fun hnext => ih (episode + 1) gateway hnext hdone

theorem leads_seed {dataset : Dataset Binary64} (hdataset : dataset.Fresh)
    (hname : dataset.name = Location.displayName trial.dataset)
    (gatewayMips : Binary64)
    (hdone : done ++ (List.range plan.experiment.episodes).map (trial, ·) <+:
      plan.sweep) :
    Leads (Stands policy.journaled allotted plan done report)
      (Ends policy.journaled allotted plan fun value =>
        Stands policy.journaled allotted plan
          (done ++ (List.range plan.experiment.episodes).map (trial, ·))
          value.2)
      (runSeed host.journaled policy.journaled allotted (trial.setup plan)
        dataset (trial.topology plan) gatewayMips trial.seed report) := by
  unfold runSeed
  dsimp only
  rw [hname]
  refine (leads_announce trial).bind fun told => ?_
  cases told with
  | error fault =>
      exact .fault Reached.stands ((List.prefix_append done _).trans hdone)
  | ok _ =>
      rw [List.range_eq_range'] at hdone ⊢
      refine (leads_episodes hdataset hname plan.experiment.episodes 0 _ rfl
        hdone).andThen (fun _ => rfl) ?_
      rintro ⟨ctx, report⟩
      exact .pure fun _ hreached => ⟨some trial, hreached⟩

theorem leads_seeds {dataset : Dataset Binary64} (hdataset : dataset.Fresh)
    {path : String} (hname : dataset.name = Location.displayName path)
    {fogNodes : Nat} {pair : StrategyPair} (gatewayMips : Binary64)
    (seeds : List Nat) (results : List SeedResult)
    (hdone : done ++ seeds.map (Trial.mk path fogNodes pair) ×ˢ
      List.range plan.experiment.episodes <+: plan.sweep) :
    Leads (Stands policy.journaled allotted plan done report)
      (Ends policy.journaled allotted plan fun value =>
        Stands policy.journaled allotted plan
          (done ++ seeds.map (Trial.mk path fogNodes pair) ×ˢ
            List.range plan.experiment.episodes) value.2)
      (runSeeds host.journaled policy.journaled allotted
        (plan.atPoint path fogNodes pair) dataset
        (Topology.ofPlanUnchecked (plan.atPoint path fogNodes pair).topology)
        gatewayMips seeds results report) := by
  induction seeds generalizing results done report with
  | nil =>
      rw [List.map_nil, List.nil_product, List.append_nil]
      exact .pure fun _ hstands => hstands
  | cons seed rest ih =>
      rw [List.map_cons, List.product_cons, ← List.append_assoc] at hdone ⊢
      have hseed := @leads_seed σ policy host allotted plan
        ⟨path, fogNodes, pair, seed⟩ done report dataset hdataset hname
        gatewayMips ((List.prefix_append _ _).trans hdone)
      refine hseed.andThen (fun _ => rfl) ?_
      rintro ⟨result, report⟩
      exact ih (results ++ [result]) hdone

theorem leads_setup (path : String) (fogNodes : Nat) (pair : StrategyPair)
    (results : List SeedResult)
    (hdone : done ++ plan.experiment.seeds.map (Trial.mk path fogNodes pair) ×ˢ
      List.range plan.experiment.episodes <+: plan.sweep) :
    Leads (Stands policy.journaled allotted plan done report)
      (Ends policy.journaled allotted plan fun value =>
        Stands policy.journaled allotted plan
          (done ++ plan.experiment.seeds.map (Trial.mk path fogNodes pair) ×ˢ
            List.range plan.experiment.episodes) value.2)
      (runSetup host.journaled policy.journaled allotted
        (plan.atPoint path fogNodes pair) results report) := by
  have hbefore : done <+: plan.sweep :=
    (List.prefix_append done _).trans hdone
  unfold runSetup
  refine (leads_load host _).bind fun loaded => .of_and fun hloaded => ?_
  cases loaded with
  | error fault => exact .fault (fun _ => id) hbefore
  | ok dataset =>
      obtain ⟨hdataset, hname⟩ := hloaded dataset rfl
      dsimp only
      cases htopology : Topology.ofPlan
          (plan.atPoint path fogNodes pair).topology with
      | error fault => exact .fault (fun _ => id) hbefore
      | ok topology =>
          obtain rfl := (Topology.ofPlan_ok htopology).1
          cases hgateway : (Topology.ofPlanUnchecked
              (plan.atPoint path fogNodes pair).topology).gateway? with
          | none =>
              simp only [hgateway]
              exact .fault (fun _ => id) hbefore
          | some gateway =>
              simp only [hgateway]
              exact leads_seeds hdataset hname gateway.mips
                plan.experiment.seeds results hdone

theorem leads_setups (places : List (String × Nat × StrategyPair))
    (results : List SeedResult)
    (hdone : done ++ plan.trialsOf places ×ˢ
      List.range plan.experiment.episodes <+: plan.sweep) :
    Leads (Stands policy.journaled allotted plan done report)
      (Ends policy.journaled allotted plan fun _ memory =>
        ∃ report, Stands policy.journaled allotted plan
          (done ++ plan.trialsOf places ×ˢ
            List.range plan.experiment.episodes) report memory)
      (runSetups host.journaled policy.journaled allotted
        (places.map fun (path, fogNodes, pair) =>
          plan.atPoint path fogNodes pair) results report) := by
  induction places generalizing results done report with
  | nil =>
      have hpoints : done ++ plan.trialsOf [] ×ˢ
          List.range plan.experiment.episodes = done := List.append_nil done
      rw [hpoints]
      exact .pure fun _ hstands => ⟨report, hstands⟩
  | cons place rest ih =>
      obtain ⟨path, fogNodes, pair⟩ := place
      rw [plan.trialsOf_cons_product, ← List.append_assoc] at hdone ⊢
      refine (leads_setup path fogNodes pair results
        ((List.prefix_append _ _).trans hdone)).andThen (fun _ => rfl) ?_
      rintro ⟨all, report⟩
      exact ih all hdone

/-- Whether a run succeeds or not, its journal is a chronicle of the first
episodes of the sweep, of all of them if it succeeds. -/
theorem run_chronicle (host : Host (StateM σ))
    (policy : Policy (StateM σ) Binary64) (allotted : Nat)
    (plan : Plan Binary64) (memory : σ) :
    let ended := (run host.journaled policy.journaled allotted plan).run
      ([], memory)
    ∃ told records, Chronicle plan told records ended.2.1 ∧
      (∀ record ∈ records, record.Played plan policy.journaled allotted) ∧
      records.map Record.point <+: plan.sweep ∧
      (ended.1.isOk = true → records.map Record.point = plan.sweep) := by
  intro ended
  obtain ⟨left, hcreate⟩ := Report.run_create host plan.outputDir [] memory
  have hended : ended = (runSetups host.journaled policy.journaled allotted
      plan.setups [] ⟨plan.outputDir, []⟩).run
        ([.wrote (Location.join plan.outputDir Report.tableName)
          (tableText [])], left) := run_bind_eq hcreate
  have hopened : Stands policy.journaled allotted plan [] ⟨plan.outputDir, []⟩
      ([.wrote (Location.join plan.outputDir Report.tableName)
        (tableText [])], left) :=
    ⟨none, [], rfl, rfl, nofun, .opened⟩
  have hsetups := @leads_setups σ policy host allotted plan []
    ⟨plan.outputDir, []⟩ (plan.datasetAxis ×ˢ plan.fogAxis ×ˢ plan.strategyAxis)
    []
  rw [← plan.setups_eq, ← plan.trials_eq, List.nil_append] at hsetups
  have hends := hsetups List.prefix_rfl _ hopened
  rw [← hended] at hends
  cases hresult : ended.1 with
  | error fault =>
      rw [hresult] at hends
      obtain ⟨done, report, hdone, told, records, rfl, _, hplayed,
        hchronicle⟩ := hends
      exact ⟨told, records, hchronicle, hplayed, hdone, nofun⟩
  | ok results =>
      rw [hresult] at hends
      obtain ⟨report, told, records, hpoints, _, hplayed, hchronicle⟩ := hends
      have hsweep : records.map Record.point = plan.sweep := hpoints
      exact ⟨told, records, hchronicle, hplayed,
        hsweep ▸ List.prefix_rfl, fun _ => hsweep⟩

end Experiment

/-! ## A small experiment

Every dataset has a single task, and the datasets differ in its length. -/

namespace Sample

/-- One episode of one seed over each of some datasets. -/
def experiment (cloudNodes : Nat) (datasets : List String) :
    Plan Binary64 where
  outputDir := "out"
  experiment := ⟨"small", .placement, 1, [7], false, datasets, [], []⟩
  dataset := ⟨"a", whole 1⟩
  topology := ⟨"", cloudNodes, device, 0, [], device⟩
  network := ⟨whole 1, whole 1, whole 1, whole 1, whole 1, whole 1⟩
  gateway := ⟨whole 1, false⟩
  policy := ⟨"", "FIFO", 1, 1, .line, 1, ⟨none, none, none⟩⟩
  ending := .drained

def jobTable : String :=
  ",,,,,,,,,,,,,,,,,,,,,\n,1,,,,0,,,,,,,,,,,,,,1,,[]\n"

def taskTable (length : String) : String :=
  ",,,,,,,,,,,,,,,,,\n,1,1," ++ length ++ ",1,1,,1,,100,,,,,,,,1\n"

def disk : Host (StateM Unit) where
  read
    | "a/Jobs.csv" => return some jobTable.toUTF8
    | "a/Tasks.csv" => return some (taskTable "5").toUTF8
    | "b/Jobs.csv" => return some jobTable.toUTF8
    | "b/Tasks.csv" => return some (taskTable "10").toUTF8
    | _ => return none
  createDirectory _ := return true
  write _ _ := return true
  nanoseconds := return 0

def ended (cloudNodes : Nat) (datasets : List String) :
    Except Fault (List Experiment.SeedResult) × List Entry × Unit :=
  (Experiment.run disk.journaled service.journaled 20
    (experiment cloudNodes datasets)).run ([], ())

end Sample
end FogDispatch
