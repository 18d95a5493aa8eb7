import FogDispatch.Fault
import FogDispatch.Plan
import FogDispatch.Text.Split

/-!
# Requests

What the simulator says to the decision service.  A setup announces the devices once per seed, a
question carries the observed state, a reward and a lesson refer to the decision they are about, and
two requests close every episode.
-/

namespace FogDispatch

/-- The announcement of an environment. -/
structure Setup (α : Type) where
  name : String
  strategy : String
  seed : Nat
  /-- The features of a cloud node, if there is one. -/
  cloud : Option (NodeFeatures α)
  fog : List (NodeFeatures α)
  network : NetworkPlan α
  priorities : Nat
  learning : LearningFlags
  deriving DecidableEq, Repr

/-- A request to the decision service. -/
inductive Request (α : Type) where
  | setup (data : Setup α)
  | askDecision (number : Nat) (state : List α)
  | saveReward (number : Nat) (reward : α)
  | retrain (number : Nat) (state : List α)
  | saveModel (episode : Nat)
  | nextEpisode
  deriving DecidableEq, Repr

namespace Setup

variable {α : Type} [Arith α]

/-- Learning flags are announced only to strategies that learn, which have `DRL` in their names. -/
def announcedFlags (policy : PolicyPlan) : LearningFlags :=
  if isPartOf "DRL".toList policy.strategy.toList then policy.learning else ⟨none, none, none⟩

/-- The announcement of a plan whose dataset and topology are at hand. -/
def ofPlan (plan : Plan α) (dataset : String) (topology : Topology α) (seed : Nat) : Setup α :=
  let fog := topology.featuresOf .fog
  { name := String.intercalate "-" [plan.experiment.name, dataset, plan.experiment.strategy.text,
      plan.policy.strategy, toString fog.length, toString seed]
    strategy := plan.policy.strategy
    seed := seed
    cloud := (topology.featuresOf .cloud).head?
    fog := fog
    network := plan.network
    priorities := plan.policy.priorities
    learning := announcedFlags plan.policy }

end Setup

namespace Request

def name {α : Type} : Request α → String
  | setup _ => "setup"
  | askDecision _ _ => "ask_decision"
  | saveReward _ _ => "save_reward"
  | retrain _ _ => "retrain"
  | saveModel _ => "save_model"
  | nextEpisode => "next_episode"

end Request

/-- A decision service, as seen from the simulator: it answers a request with a text or fails to
answer.  What else happens while it answers is a matter of the monad. -/
structure Policy (m : Type → Type) (α : Type) where
  ask : Request α → m (Except Fault String)

end FogDispatch
