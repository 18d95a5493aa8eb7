import FogDispatch.Topology

/-!
# Energy

The energy of the gateway is reconstructed from its decisions: it draws power by its load while it
decides and idle power otherwise.  The energy of the other devices follows from the time they
worked.
-/

namespace FogDispatch

/-- One decision of the gateway: when it was taken, how long it took and the load meanwhile. -/
structure GatewaySample (α : Type) where
  timestamp : Time α
  time : Span α
  cpuPercent : α
  deriving DecidableEq, Repr

/-- The energy of the gateway over an episode. -/
structure GatewayEnergy (α : Type) where
  idle : α
  busy : α
  /-- The running total after each decision. -/
  series : List α
  deriving DecidableEq, Repr

namespace GatewayEnergy

variable {α : Type} [Arith α]

def zero : GatewayEnergy α := ⟨Arith.zero, Arith.zero, []⟩

/-- The busy time and busy energy after one more decision. -/
def accumulate (power : PowerModel α) (spent : α × α) (sample : GatewaySample α) : α × α :=
  (spent.1 + sample.time.value,
    spent.2 + sample.time.value * power.power (sample.cpuPercent / Arith.ofNat 100))

/-- The running totals after each of the decisions, from the busy time and energy before them. -/
def runningTotals (power : PowerModel α) (spent : α × α) : List (GatewaySample α) → List α
  | [] => []
  | sample :: rest =>
    let next := accumulate power spent sample
    let idleSoFar := sample.timestamp.value - spent.1
    (next.2 + idleSoFar * power.staticPower) :: runningTotals power next rest

/-- The energy of the decisions of an episode whose clock stopped at `clock`. -/
def ofSamples (samples : List (GatewaySample α)) (power : PowerModel α) (clock : Time α) :
    GatewayEnergy α :=
  let (busyTime, busy) := samples.foldl (accumulate power) (Arith.zero, Arith.zero)
  { idle := Arith.larger (clock.value - busyTime) Arith.zero * power.staticPower
    busy := busy
    series := runningTotals power (Arith.zero, Arith.zero) samples }

def total (energy : GatewayEnergy α) : α := energy.idle + energy.busy

end GatewayEnergy

namespace Node

variable {α : Type} [Arith α]

/-- The energy of a node that worked for `worked`, of which nothing counts beyond the clock. -/
def energy (node : Node α) (worked : α) (clock : Time α) : α :=
  let busy := Arith.smaller worked clock.value
  busy * node.power.power node.utilization + (clock.value - busy) * node.power.staticPower

end Node
end FogDispatch
