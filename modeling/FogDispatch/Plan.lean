import FogDispatch.Topology

/-!
# Plans

What a run is configured to do: the experiment, its dataset, devices and network, and the decision
service.  An experiment sweeps over datasets, counts of fog nodes and pairs of strategies; an axis
that lists nothing has the plan's single value.
-/

namespace FogDispatch

/-- What the policy decides. -/
inductive StrategyKind where
  /-- A node for the task at the head of the queue. -/
  | placement
  /-- Both the task and the node. -/
  | joint
  deriving DecidableEq, Repr, Inhabited

namespace StrategyKind

def text : StrategyKind → String
  | placement => "placement"
  | joint => "scheduling_and_placement"

def ofName? : String → Option StrategyKind
  | "placement" => some placement
  | "scheduling_and_placement" => some joint
  | _ => none

end StrategyKind

/-- How the decision service frames its answers. -/
inductive Framing where
  /-- Two bytes of length, the higher one first, and that many bytes of text. -/
  | lengthPrefixed
  /-- A text that ends at a line end. -/
  | line
  deriving DecidableEq, Repr, Inhabited

namespace Framing

def text : Framing → String
  | lengthPrefixed => "length_prefixed"
  | line => "line"

def ofName? : String → Option Framing
  | "length_prefixed" => some lengthPrefixed
  | "line" => some line
  | _ => none

end Framing

/-- When an episode ends. -/
inductive EndCondition (α : Type) where
  /-- When nothing is left to happen. -/
  | drained
  /-- At a point in time, whatever is left. -/
  | limit (time : Time α)
  deriving DecidableEq, Repr

/-- A kind of strategy with the name under which the service knows it. -/
structure StrategyPair where
  kind : StrategyKind
  policy : String
  deriving DecidableEq, Repr

/-- The experiment and the axes of its sweep. -/
structure ExperimentPlan where
  /-- The first part of every setup name. -/
  name : String
  strategy : StrategyKind
  episodes : Nat
  seeds : List Nat
  /-- Whether only tasks that their jobs admit are offered. -/
  respectJobs : Bool
  datasets : List String
  fogNodes : List Nat
  strategies : List StrategyPair
  deriving DecidableEq, Repr

/-- The directory of a dataset, and the factor on the lengths of its tasks. -/
structure DatasetPlan (α : Type) where
  path : String
  runtimeScale : α
  deriving DecidableEq, Repr

/-- How the time of decisions is charged. -/
structure GatewayPlan (α : Type) where
  /-- The speed of the machine on which the decision service runs. -/
  realMips : α
  chargeComputeTime : Bool
  deriving DecidableEq, Repr

/-- Flags of learning strategies. -/
structure LearningFlags where
  load : Option Bool
  training : Option Bool
  save : Option Bool
  deriving DecidableEq, Repr

/-- How the decision service is reached and what it is told. -/
structure PolicyPlan where
  address : String
  /-- The name of the strategy on the side of the service. -/
  strategy : String
  maxAttempts : Nat
  attemptTimeoutMs : Nat
  framing : Framing
  priorities : Nat
  learning : LearningFlags
  deriving DecidableEq, Repr

/-- Everything a run is configured to do. -/
structure Plan (α : Type) where
  outputDir : String
  experiment : ExperimentPlan
  dataset : DatasetPlan α
  topology : TopologyPlan α
  network : NetworkPlan α
  gateway : GatewayPlan α
  policy : PolicyPlan
  ending : EndCondition α

namespace Plan

variable {α : Type}

/-- The values of an axis, the single value if it lists none. -/
def axis {β : Type} (values : List β) (single : β) : List β :=
  if values.isEmpty then [single] else values

def datasetAxis (plan : Plan α) : List String :=
  axis plan.experiment.datasets plan.dataset.path

def fogAxis (plan : Plan α) : List Nat :=
  axis plan.experiment.fogNodes plan.topology.fogNodes

def strategyAxis (plan : Plan α) : List StrategyPair :=
  axis plan.experiment.strategies ⟨plan.experiment.strategy, plan.policy.strategy⟩

/-- The plan with its single values set to a point of the sweep. -/
def atPoint (plan : Plan α) (path : String) (fogNodes : Nat) (pair : StrategyPair) : Plan α :=
  { plan with
    dataset := { plan.dataset with path := path }
    topology := { plan.topology with fogNodes := fogNodes }
    experiment := { plan.experiment with strategy := pair.kind }
    policy := { plan.policy with strategy := pair.policy } }

/-- One plan per point of the sweep: by dataset, then count of fog nodes, then pair of
strategies. -/
def setups (plan : Plan α) : List (Plan α) :=
  plan.datasetAxis.flatMap fun path =>
    plan.fogAxis.flatMap fun fogNodes =>
      plan.strategyAxis.map fun pair => plan.atPoint path fogNodes pair

end Plan
end FogDispatch
