import FogDispatch.Dataset

/-!
# Overviews

What the datasets and topologies of a sweep turn out to be, found without any decision service.
Points of the sweep that load the same dataset with the same number of fog nodes are looked at once.
-/

namespace FogDispatch

/-- A dataset and a topology in numbers. -/
structure Overview (α : Type) where
  dataset : String
  jobs : Nat
  tasks : Nat
  cloudNodes : Nat
  fogNodes : Nat
  fogMips : List α
  deriving DecidableEq, Repr

namespace Overview

def of {α : Type} [Arith α] (dataset : Dataset α) (topology : Topology α) : Overview α :=
  let fog := topology.featuresOf .fog
  { dataset := dataset.name
    jobs := dataset.jobs.length
    tasks := dataset.tasks.length
    cloudNodes := (topology.featuresOf .cloud).length
    fogNodes := fog.length
    fogMips := fog.map (·.mips) }

/-- The text of an overview, in three lines. -/
def text (overview : Overview Binary64) : String :=
  "dataset " ++ overview.dataset ++ s!": {overview.jobs} jobs, {overview.tasks} tasks\n" ++
    s!"cloud nodes: {overview.cloudNodes}\n" ++
    s!"fog nodes: {overview.fogNodes} [" ++
    String.intercalate ", " (overview.fogMips.map RealStyle.listing.write) ++ "]"

end Overview

namespace Plan

/-- What decides about the dataset and the topology of a point of a sweep. -/
def loadKey (plan : Plan Binary64) : List PathPart × Nat :=
  (Location.parts plan.dataset.path, plan.topology.fogNodes)

/-- The points of a sweep without those whose key was there before. -/
def distinct (seen : List (List PathPart × Nat)) : List (Plan Binary64) → List (Plan Binary64)
  | [] => []
  | plan :: rest =>
    if seen.contains plan.loadKey then distinct seen rest
    else plan :: distinct (plan.loadKey :: seen) rest

end Plan

namespace Overview

variable {m : Type → Type} [Monad m]

def ofPlan (host : Host m) (plan : Plan Binary64) : m (Except Fault (Overview Binary64)) := do
  match ← Dataset.load host plan.dataset with
  | .error fault => return .error fault
  | .ok dataset =>
    match Topology.ofPlan plan.topology with
    | .error fault => return .error (.topology fault)
    | .ok topology => return .ok (of dataset topology)

/-- The overviews of plans, up to the first that can not be loaded. -/
def ofPlans (host : Host m) : List (Plan Binary64) → m (Except Fault (List (Overview Binary64)))
  | [] => return .ok []
  | plan :: plans => do
    match ← ofPlan host plan with
    | .error fault => return .error fault
    | .ok overview =>
      match ← ofPlans host plans with
      | .error fault => return .error fault
      | .ok overviews => return .ok (overview :: overviews)

def ofSweep (host : Host m) (plan : Plan Binary64) :
    m (Except Fault (List (Overview Binary64))) :=
  ofPlans host (Plan.distinct [] plan.setups)

end Overview
end FogDispatch
