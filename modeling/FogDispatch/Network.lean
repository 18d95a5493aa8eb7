import FogDispatch.Node

/-!
# The network between the gateway and its nodes

Each of the two classes of devices has a latency and an upload speed.  Moving data to a node takes
the latency of its class and the upload of the data.
-/

namespace FogDispatch

/-- The configured network: latencies in seconds, bandwidths in megabits per second. -/
structure NetworkPlan (α : Type) where
  fogLatency : α
  fogUpload : α
  fogDownload : α
  cloudLatency : α
  cloudUpload : α
  cloudDownload : α
  deriving DecidableEq, Repr

/-- The network of an episode, with upload speeds in megabytes per second. -/
structure Network (α : Type) where
  fogLatency : α
  fogUpload : α
  cloudLatency : α
  cloudUpload : α
  /-- The datacenter of the cloud nodes, if there are any. -/
  cloudDatacenter : Option DatacenterId
  deriving DecidableEq, Repr

namespace Network

variable {α : Type} [Arith α]

/-- The network of a plan.  A byte has eight bits. -/
def ofPlan (plan : NetworkPlan α) (cloudDatacenter : Option DatacenterId) : Network α where
  fogLatency := plan.fogLatency
  fogUpload := plan.fogUpload / Arith.ofNat 8
  cloudLatency := plan.cloudLatency
  cloudUpload := plan.cloudUpload / Arith.ofNat 8
  cloudDatacenter := cloudDatacenter

/-- The time that `size` megabytes take to a datacenter. -/
def transferDelay (network : Network α) (datacenter : DatacenterId) (size : α) : Span α :=
  if some datacenter = network.cloudDatacenter then
    ⟨network.cloudLatency + size / network.cloudUpload⟩
  else
    ⟨network.fogLatency + size / network.fogUpload⟩

end Network
end FogDispatch
