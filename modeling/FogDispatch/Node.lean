import FogDispatch.Task

/-!
# Nodes

The devices of an episode: fog and cloud nodes, on which tasks are placed, and the gateway, which
decides and is no target itself.  A node runs one task at a time.
-/

namespace FogDispatch

/-- What a device is for. -/
inductive NodeKind where
  | cloud
  | fog
  | gateway
  deriving DecidableEq, Repr

/-- Whether a device runs a task. -/
inductive NodeState where
  | idle
  | busy
  deriving DecidableEq, Repr

namespace NodeKind
def text : NodeKind → String
  | cloud => "cloud"
  | fog => "fog"
  | gateway => "gateway"
end NodeKind

namespace NodeState
def text : NodeState → String
  | idle => "idle"
  | busy => "busy"
end NodeState

/-- Power drawn grows linearly with the utilization, from idle to busy power. -/
structure PowerModel (α : Type) where
  busy : α
  idle : α
  deriving DecidableEq, Repr

namespace PowerModel

variable {α : Type} [Arith α]

/-- The power at a utilization, which is cut to the range from zero to one. -/
def power (model : PowerModel α) (utilization : α) : α :=
  let share := Arith.smaller (Arith.larger utilization Arith.zero) Arith.one
  model.idle + (model.busy - model.idle) * share

def staticPower (model : PowerModel α) : α := model.idle

end PowerModel

/-- The description of a device. -/
structure NodeSpec (α : Type) where
  mips : α
  /-- The speed of the hosting machine, the node's own speed if absent. -/
  hostMips : Option α
  ram : α
  storage : α
  busyPower : α
  idlePower : α
  deriving DecidableEq, Repr

namespace NodeSpec

variable {α : Type} [Arith α]

def hostSpeed (spec : NodeSpec α) : α := spec.hostMips.getD spec.mips

/-- Whether a device can run tasks: it has a speed, and its host is no slower than it. -/
def isSound (spec : NodeSpec α) : Bool :=
  Arith.less Arith.zero spec.mips &&
    (Arith.less spec.mips spec.hostSpeed || Arith.same spec.mips spec.hostSpeed)

end NodeSpec

/-- The five numbers by which a device is announced. -/
structure NodeFeatures (α : Type) where
  mips : α
  ram : α
  storage : α
  busyPower : α
  idlePower : α
  deriving DecidableEq, Repr

namespace NodeFeatures
def toList {α : Type} (f : NodeFeatures α) : List α :=
  [f.mips, f.ram, f.storage, f.busyPower, f.idlePower]
end NodeFeatures

/-- A device of an episode. -/
structure Node (α : Type) where
  id : NodeId
  host : Nat
  datacenter : DatacenterId
  kind : NodeKind
  /-- The speed in million instructions per second. -/
  mips : α
  hostMips : α
  ram : α
  storage : α
  power : PowerModel α
  state : NodeState
  deriving DecidableEq, Repr

namespace Node

variable {α : Type} [Arith α]

def ofSpec (index : Nat) (datacenter : DatacenterId) (kind : NodeKind) (spec : NodeSpec α) :
    Node α where
  id := ⟨index⟩
  host := index
  datacenter := datacenter
  kind := kind
  mips := spec.mips
  hostMips := spec.hostSpeed
  ram := spec.ram
  storage := spec.storage
  power := ⟨spec.busyPower, spec.idlePower⟩
  state := .idle

def isIdle (node : Node α) : Bool := node.state == .idle

def isCandidate (node : Node α) : Bool := node.kind != .gateway

/-- The share of the hosting machine that a running task takes. -/
def utilization (node : Node α) : α :=
  if Arith.less Arith.zero node.hostMips then node.mips / node.hostMips else Arith.one

/-- The time that `length` million instructions take on the node. -/
def runningTime (node : Node α) (length : α) : Span α := ⟨length / node.mips⟩

def features (node : Node α) : NodeFeatures α :=
  ⟨node.mips, node.ram, node.storage, node.power.busy, node.power.idle⟩

def markBusy (node : Node α) : Node α := { node with state := .busy }

def markIdle (node : Node α) : Node α := { node with state := .idle }

end Node
end FogDispatch
