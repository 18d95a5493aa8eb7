import FogDispatch.Dataset
import FogDispatch.Episode
import FogDispatch.Report

/-!
# Experiments

The whole sweep of a plan: every dataset, count of fog nodes and pair of strategies, each with every
seed, and all episodes in one report.  The decision service is told about the environment once per
seed, and after each episode it saves its model and moves on.
-/

namespace FogDispatch.Experiment

/-- What a series of episodes of one seed came to. -/
abbrev SeedResult := RunInfo × RunSummary Binary64

variable {m : Type → Type} [Monad m]

/-- The setting of the episodes of one seed. -/
structure Course where
  plan : Plan Binary64
  dataset : Dataset Binary64
  topology : Topology Binary64
  info : RunInfo
  /-- The most events that an episode may take. -/
  allotted : Nat

/-- One episode with everything the service is told about it. -/
def runEpisode (host : Host m) (policy : Policy m Binary64) (course : Course) (episode : Nat)
    (gateway : Gateway Binary64) (ctx : Context Binary64) (report : Report) :
    m (Except Fault (Gateway Binary64 × Context Binary64 × Report)) := do
  let started ← host.nanoseconds
  let ctx := ctx.startEpisode episode course.dataset.jobs course.dataset.tasks
  match ← Episode.run course.allotted policy course.plan.ending gateway.reset ctx with
  | (.error fault, _) => return .error fault
  | (.ok clock, final) =>
    let ctx := final.context.finishEpisode clock
    match ← policy.ask (.saveModel episode) with
    | .error fault => return .error fault
    | .ok _ =>
      match ← policy.ask .nextEpisode with
      | .error fault => return .error fault
      | .ok _ =>
        let stopped ← host.nanoseconds
        match ctx.metrics.finished.getLast? with
        | none => return .error .unfinished
        | some metrics =>
          match ← report.record host info metrics final.gateway.unplaced (stopped - started) with
          | .error fault => return .error fault
          | .ok report => return .ok (final.gateway, ctx, report)
where
  info := course.info

/-- The episodes of one seed that are left, the next of them being `episode`. -/
def runEpisodes (host : Host m) (policy : Policy m Binary64) (course : Course) :
    Nat → Nat → Gateway Binary64 → Context Binary64 → Report →
      m (Except Fault (Context Binary64 × Report))
  | 0, _, _, ctx, report => return .ok (ctx, report)
  | left + 1, episode, gateway, ctx, report => do
    match ← runEpisode host policy course episode gateway ctx report with
    | .error fault => return .error fault
    | .ok (gateway, ctx, report) =>
      runEpisodes host policy course left (episode + 1) gateway ctx report

def runSeed (host : Host m) (policy : Policy m Binary64) (allotted : Nat) (plan : Plan Binary64)
    (dataset : Dataset Binary64) (topology : Topology Binary64) (gatewayMips : Binary64)
    (seed : Nat) (report : Report) : m (Except Fault (SeedResult × Report)) := do
  let info : RunInfo :=
    { dataset := dataset.name
      fogNodes := (topology.featuresOf .fog).length
      placement := plan.experiment.strategy
      policy := plan.policy.strategy
      seed := seed }
  let network := Network.ofPlan plan.network topology.cloudDatacenter
  let ctx := Context.fresh topology network plan.experiment.respectJobs
  let cost := CostModel.ofPlan plan.gateway gatewayMips
  let strategy := Strategy.fresh plan.experiment.strategy cost
  match ← policy.ask (.setup (Setup.ofPlan plan dataset.name topology seed)) with
  | .error fault => return .error fault
  | .ok _ =>
    let course : Course := ⟨plan, dataset, topology, info, allotted⟩
    match ← runEpisodes host policy course plan.experiment.episodes 0 (Gateway.fresh strategy) ctx
        report with
    | .error fault => return .error fault
    | .ok (ctx, report) => return .ok ((info, ctx.metrics.summary), report)

/-- All seeds of one setup, after the results of earlier ones. -/
def runSeeds (host : Host m) (policy : Policy m Binary64) (allotted : Nat) (plan : Plan Binary64)
    (dataset : Dataset Binary64) (topology : Topology Binary64) (gatewayMips : Binary64) :
    List Nat → List SeedResult → Report → m (Except Fault (List SeedResult × Report))
  | [], results, report => return .ok (results, report)
  | seed :: seeds, results, report => do
    match ← runSeed host policy allotted plan dataset topology gatewayMips seed report with
    | .error fault => return .error fault
    | .ok (result, report) =>
      runSeeds host policy allotted plan dataset topology gatewayMips seeds (results ++ [result])
        report

def runSetup (host : Host m) (policy : Policy m Binary64) (allotted : Nat) (plan : Plan Binary64)
    (results : List SeedResult) (report : Report) :
    m (Except Fault (List SeedResult × Report)) := do
  match ← Dataset.load host plan.dataset with
  | .error fault => return .error fault
  | .ok dataset =>
    match Topology.ofPlan plan.topology with
    | .error fault => return .error (.topology fault)
    | .ok topology =>
      match topology.gateway? with
      | none => return .error (.topology .noGateway)
      | some gateway =>
        runSeeds host policy allotted plan dataset topology gateway.mips plan.experiment.seeds
          results report

def runSetups (host : Host m) (policy : Policy m Binary64) (allotted : Nat) :
    List (Plan Binary64) → List SeedResult → Report → m (Except Fault (List SeedResult))
  | [], results, _ => return .ok results
  | plan :: plans, results, report => do
    match ← runSetup host policy allotted plan results report with
    | .error fault => return .error fault
    | .ok (results, report) => runSetups host policy allotted plans results report

/-- The whole experiment: the averages of every seed of every setup.  An episode may take at most
`allotted` events. -/
def run (host : Host m) (policy : Policy m Binary64) (allotted : Nat) (plan : Plan Binary64) :
    m (Except Fault (List SeedResult)) := do
  match ← Report.create host plan.outputDir with
  | .error fault => return .error fault
  | .ok report => runSetups host policy allotted plan.setups [] report

end FogDispatch.Experiment
