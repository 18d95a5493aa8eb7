import FogDispatch.Energy

/-!
# Metrics

What is measured during an episode, and its averages over a run.  An episode counts missed deadlines
by priority, keeps the history of completions, rewards and decisions, and closes with the energy of
its devices.
-/

namespace FogDispatch

/-- Working time by host, the hosts in ascending order. -/
structure BusyTimes (α : Type) where
  entries : List (Nat × α)
  deriving DecidableEq, Repr

namespace BusyTimes

variable {α : Type} [Arith α]

/-- Adds to the entry of a host, which starts from zero. -/
def addTo (host : Nat) (time : α) : List (Nat × α) → List (Nat × α)
  | [] => [(host, Arith.zero + time)]
  | (other, sum) :: rest =>
    if host < other then (host, Arith.zero + time) :: (other, sum) :: rest
    else if host = other then (other, sum + time) :: rest
    else (other, sum) :: addTo host time rest

/-- The working time with more of it on a host. -/
def add (times : BusyTimes α) (host : Nat) (time : Span α) : BusyTimes α :=
  ⟨addTo host time.value times.entries⟩

def of (times : BusyTimes α) (host : Nat) : α :=
  match times.entries.find? (·.1 == host) with
  | some entry => entry.2
  | none => Arith.zero

end BusyTimes

/-- Everything measured during one episode. -/
structure EpisodeMetrics (α : Type) where
  episode : Nat
  violations : PriorityTally
  violatedTasks : List TaskId
  /-- The time from arrival to finish with the decision cost, of every released task. -/
  completions : List (TaskId × α)
  rewards : List α
  samples : List (GatewaySample α)
  /-- The sum of the times from arrival to finish. -/
  totalCompletion : α
  /-- The sum of the times from start to finish. -/
  totalRunning : α
  completed : Nat
  deviceBusy : BusyTimes α
  clock : Time α
  deviceEnergy : α
  gatewayEnergy : GatewayEnergy α

namespace EpisodeMetrics

variable {α : Type} [Arith α]

def start (episode : Nat) : EpisodeMetrics α where
  episode := episode
  violations := PriorityTally.zero
  violatedTasks := []
  completions := []
  rewards := []
  samples := []
  totalCompletion := Arith.zero
  totalRunning := Arith.zero
  completed := 0
  deviceBusy := ⟨[]⟩
  clock := Time.zero
  deviceEnergy := Arith.zero
  gatewayEnergy := GatewayEnergy.zero

def recordViolation (m : EpisodeMetrics α) (task : Task α) : EpisodeMetrics α :=
  { m with
    violations := m.violations.bump task.priority
    violatedTasks := m.violatedTasks ++ [task.id] }

def totalViolations (m : EpisodeMetrics α) : Nat := m.violations.total

def recordReward (m : EpisodeMetrics α) (reward : α) : EpisodeMetrics α :=
  { m with rewards := m.rewards ++ [reward] }

def recordSample (m : EpisodeMetrics α) (timestamp : Time α) (time : Span α) (cpuPercent : α) :
    EpisodeMetrics α :=
  { m with samples := m.samples ++ [⟨timestamp, time, cpuPercent⟩] }

def addDeviceBusy (m : EpisodeMetrics α) (host : Nat) (time : Span α) : EpisodeMetrics α :=
  { m with deviceBusy := m.deviceBusy.add host time }

/-- Takes in a released task.  A task without a finish changes nothing, and one without a start
counts as started at its finish. -/
def recordCompletion (m : EpisodeMetrics α) (task : Task α) : EpisodeMetrics α :=
  match task.finish with
  | none => m
  | some finish =>
    let started := task.start.getD finish
    let sinceArrival := (finish - task.arrival).value
    { m with
      totalCompletion := m.totalCompletion + sinceArrival
      totalRunning := m.totalRunning + (finish - started).value
      completed := m.completed + 1
      completions := m.completions ++ [(task.id, sinceArrival + task.decisionCost.value)] }

def avgCompletion (m : EpisodeMetrics α) : α := Arith.mean (m.completions.map Prod.snd)

def avgReward (m : EpisodeMetrics α) : α := Arith.mean m.rewards

def gatewayBusyTime (m : EpisodeMetrics α) : α := Arith.sum (m.samples.map (·.time.value))

def avgGatewayBusyTime (m : EpisodeMetrics α) : α :=
  Arith.ratioOrZero m.gatewayBusyTime (Arith.ofNat m.samples.length)

/-- The figures of energy once the clock has stopped. -/
def close (m : EpisodeMetrics α) (clock : Time α) (topology : Topology α) : EpisodeMetrics α :=
  { m with
    clock := clock
    deviceEnergy := Arith.sum <| topology.candidates.map fun node =>
      node.energy (m.deviceBusy.of node.host) clock
    gatewayEnergy := match topology.gateway? with
      | some gateway => GatewayEnergy.ofSamples m.samples gateway.power clock
      | none => GatewayEnergy.zero }

end EpisodeMetrics

/-- Averages over all episodes of a run. -/
structure RunSummary (α : Type) where
  episodes : Nat
  violations : PriorityTally
  avgCompletion : α
  avgReward : α
  avgGatewayBusyTime : α

/-- The episode under way and the finished ones of a run. -/
structure RunMetrics (α : Type) where
  finished : List (EpisodeMetrics α)
  current : EpisodeMetrics α

namespace RunMetrics

variable {α : Type} [Arith α]

def empty : RunMetrics α := ⟨[], EpisodeMetrics.start 0⟩

/-- A new episode in the place of the current one. -/
def startEpisode (m : RunMetrics α) (episode : Nat) : RunMetrics α :=
  { m with current := EpisodeMetrics.start episode }

def modify (m : RunMetrics α) (change : EpisodeMetrics α → EpisodeMetrics α) : RunMetrics α :=
  { m with current := change m.current }

def finishEpisode (m : RunMetrics α) (clock : Time α) (topology : Topology α) : RunMetrics α where
  finished := m.finished ++ [m.current.close clock topology]
  current := EpisodeMetrics.start 0

/-- The averages over the finished episodes, each item weighted alike. -/
def summary (m : RunMetrics α) : RunSummary α where
  episodes := m.finished.length
  violations := m.finished.foldl (fun sum e => sum.plus e.violations) PriorityTally.zero
  avgCompletion := Arith.mean (m.finished.flatMap fun e => e.completions.map Prod.snd)
  avgReward := Arith.mean (m.finished.flatMap fun e => e.rewards)
  avgGatewayBusyTime := Arith.mean (m.finished.flatMap fun e => e.samples.map (·.time.value))

end RunMetrics
end FogDispatch
