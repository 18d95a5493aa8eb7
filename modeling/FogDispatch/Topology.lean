import FogDispatch.Network
import FogDispatch.Draw

/-!
# Topologies

The list of devices of an episode.  Cloud nodes come first and share the first datacenter, fog nodes
are drawn from a catalogue and share the next one, and the gateway has a datacenter of its own.
Devices that can not run tasks are left out, and the ones that remain are numbered in order.
-/

namespace FogDispatch

/-- The configured devices. -/
structure TopologyPlan (α : Type) where
  /-- The seed of the draw of fog nodes. -/
  seed : String
  cloudNodes : Nat
  cloud : NodeSpec α
  fogNodes : Nat
  fogCatalogue : List (NodeSpec α)
  gateway : NodeSpec α

/-- Why a plan gives no topology. -/
inductive TopologyFault where
  | emptyCatalogue
  | noCandidate
  | noGateway
  deriving DecidableEq, Repr

namespace TopologyFault
def message : TopologyFault → String
  | emptyCatalogue => "fog nodes requested with an empty catalogue"
  | noCandidate => "no fog or cloud node can accept work"
  | noGateway => "the gateway node is missing"
end TopologyFault

/-- The devices of an episode. -/
structure Topology (α : Type) where
  nodes : List (Node α)
  /-- The datacenter of the cloud nodes, if any were asked for. -/
  cloudDatacenter : Option DatacenterId
  deriving DecidableEq, Repr

namespace TopologyPlan

variable {α : Type}

/-- The fog nodes in the order in which they are drawn. -/
def drawnFog (plan : TopologyPlan α) : List (NodeSpec α) :=
  (Generator.draw plan.fogCatalogue.length plan.fogNodes (Generator.ofSeed plan.seed)).filterMap
    (plan.fogCatalogue[·]?)

/-- The datacenter of the cloud nodes, if there are any. -/
def cloudDatacenter (plan : TopologyPlan α) : Option DatacenterId :=
  if 0 < plan.cloudNodes then some ⟨0⟩ else none

def fogDatacenter (plan : TopologyPlan α) : DatacenterId :=
  ⟨if 0 < plan.cloudNodes then 1 else 0⟩

def gatewayDatacenter (plan : TopologyPlan α) : DatacenterId :=
  ⟨plan.fogDatacenter.number + 1⟩

def devices (plan : TopologyPlan α) : List (DatacenterId × NodeKind × NodeSpec α) :=
  List.replicate plan.cloudNodes (⟨0⟩, .cloud, plan.cloud) ++
    plan.drawnFog.map (fun spec => (plan.fogDatacenter, .fog, spec)) ++
    [(plan.gatewayDatacenter, .gateway, plan.gateway)]

end TopologyPlan

namespace Topology

variable {α : Type} [Arith α]

/-- The placement targets in the order of observations. -/
def candidates (topology : Topology α) : List (Node α) :=
  topology.nodes.filter Node.isCandidate

def candidateIds (topology : Topology α) : List NodeId :=
  topology.candidates.map Node.id

/-- The gateway, if there is one. -/
def gateway? (topology : Topology α) : Option (Node α) :=
  topology.nodes.find? (·.kind == .gateway)

def node? (topology : Topology α) (id : NodeId) : Option (Node α) :=
  topology.nodes[id.index]?

def anyCandidateIdle (topology : Topology α) : Bool :=
  topology.candidates.any Node.isIdle

/-- The announced numbers of every node of a kind. -/
def featuresOf (topology : Topology α) (kind : NodeKind) : List (NodeFeatures α) :=
  (topology.nodes.filter (·.kind == kind)).map Node.features

def modifyNode (topology : Topology α) (id : NodeId) (change : Node α → Node α) : Topology α :=
  { topology with nodes := topology.nodes.modify id.index change }

def markBusy (topology : Topology α) (id : NodeId) : Topology α :=
  topology.modifyNode id Node.markBusy

def markIdle (topology : Topology α) (id : NodeId) : Topology α :=
  topology.modifyNode id Node.markIdle

def reset (topology : Topology α) : Topology α :=
  { topology with nodes := topology.nodes.map Node.markIdle }

/-- The devices of a plan that can run tasks, numbered in order. -/
def ofPlanUnchecked (plan : TopologyPlan α) : Topology α where
  nodes := (plan.devices.filter fun device => device.2.2.isSound).mapIdx
    fun index (datacenter, kind, spec) => Node.ofSpec index datacenter kind spec
  cloudDatacenter := plan.cloudDatacenter

/-- The topology of a plan, as long as a placement target and the gateway remain. -/
def ofPlan (plan : TopologyPlan α) : Except TopologyFault (Topology α) :=
  if plan.fogCatalogue.isEmpty ∧ 0 < plan.fogNodes then .error .emptyCatalogue
  else
    let topology := ofPlanUnchecked plan
    if topology.candidates.isEmpty then .error .noCandidate
    else if topology.gateway?.isNone then .error .noGateway
    else .ok topology

end Topology
end FogDispatch
