import FogDispatch.Fault
import FogDispatch.Host
import FogDispatch.Location
import FogDispatch.Metrics
import FogDispatch.Plan
import FogDispatch.Text.Record

/-!
# Reports

A run writes one row per episode into one table, and the histories of every episode into files of
their own next to it.  The table is written anew with each row, so that it holds all finished
episodes whenever the run ends.
-/

namespace FogDispatch

/-- What a series of episodes was about. -/
structure RunInfo where
  dataset : String
  fogNodes : Nat
  placement : StrategyKind
  policy : String
  seed : Nat
  deriving DecidableEq, Repr

/-- One row of the report. -/
structure EpisodeRow (α : Type) where
  episode : Nat
  info : RunInfo
  violations : PriorityTally
  clock : α
  wallSeconds : α
  avgCompletion : α
  deviceEnergy : α
  gatewayIdle : α
  gatewayBusy : α
  gatewayTotal : α
  avgGatewayBusyTime : α
  avgReward : α
  completed : Nat
  unplaced : Nat

/-- Real time in seconds: the whole seconds and the rest are rounded apart. -/
def wallSeconds {α : Type} [Arith α] (nanoseconds : Nat) : α :=
  Arith.ofNat (nanoseconds / 1000000000) +
    Arith.ofNat (nanoseconds % 1000000000) / Arith.ofNat 1000000000

namespace EpisodeRow

variable {α : Type} [Arith α]

def ofEpisode (info : RunInfo) (m : EpisodeMetrics α) (unplaced nanoseconds : Nat) :
    EpisodeRow α where
  episode := m.episode
  info := info
  violations := m.violations
  clock := m.clock.value
  wallSeconds := FogDispatch.wallSeconds nanoseconds
  avgCompletion := m.avgCompletion
  deviceEnergy := m.deviceEnergy
  gatewayIdle := m.gatewayEnergy.idle
  gatewayBusy := m.gatewayEnergy.busy
  gatewayTotal := m.gatewayEnergy.total
  avgGatewayBusyTime := m.avgGatewayBusyTime
  avgReward := m.avgReward
  completed := m.completed
  unplaced := unplaced

def header : List String :=
  ["episode", "dataset", "fog_nodes", "placement", "policy", "random_seed", "violations_p1",
    "violations_p2", "violations_p3", "violations_p4", "violations_p5", "sim_clock",
    "wall_time_secs", "avg_completion_time", "device_energy", "gateway_idle_energy",
    "gateway_busy_energy", "gateway_total_energy", "avg_gateway_busy_time", "avg_reward",
    "completed", "unplaced"]

def cells (row : EpisodeRow Binary64) : List String :=
  let real := RealStyle.row.write
  [toString row.episode, row.info.dataset, toString row.info.fogNodes, row.info.placement.text,
    row.info.policy, toString row.info.seed] ++
  row.violations.toList.map toString ++
  [real row.clock, real row.wallSeconds, real row.avgCompletion, real row.deviceEnergy,
    real row.gatewayIdle, real row.gatewayBusy, real row.gatewayTotal,
    real row.avgGatewayBusyTime, real row.avgReward, toString row.completed,
    toString row.unplaced]

end EpisodeRow

/-- A table as text: its header comes with its first row. -/
def tableText (rows : List (EpisodeRow Binary64)) : String :=
  if rows.isEmpty then ""
  else
    writeRecord EpisodeRow.header ++
      String.join (rows.map fun row => writeRecord row.cells)

/-- A history as text: numbered values below a header. -/
def seriesText (values : List Binary64) : String :=
  writeRecord ["index", "value"] ++
    String.join (values.mapIdx fun index value =>
      writeRecord [toString index, RealStyle.row.write value])

/-- A report under way: its directory and the rows written so far. -/
structure Report where
  directory : String
  rows : List (EpisodeRow Binary64)

namespace Report

def tableName : String := "results.csv"

def seriesName (what : String) (seed episode : Nat) : String :=
  what ++ s!"_seed{seed}_ep{episode}.csv"

/-- The histories of an episode with the names of their files. -/
def series (info : RunInfo) (m : EpisodeMetrics Binary64) : List (String × List Binary64) :=
  [(seriesName "completion_time" info.seed m.episode, m.completions.map Prod.snd),
    (seriesName "reward" info.seed m.episode, m.rewards),
    (seriesName "gateway_energy" info.seed m.episode, m.gatewayEnergy.series)]

variable {m : Type → Type} [Monad m]

/-- Writes a file into a directory, which is made first. -/
def writeInto (host : Host m) (directory name content : String) : m (Except Fault Unit) := do
  if ← host.createDirectory directory then
    if ← host.write (Location.join directory name) content then return .ok ()
    else return .error Fault.storage
  else return .error Fault.storage

def writeSeries (host : Host m) (directory name : String) (values : List Binary64) :
    m (Except Fault Unit) :=
  writeInto host directory name (seriesText values)

/-- Writes histories into a directory, up to the first that can not be written. -/
def writeAllSeries (host : Host m) (directory : String) :
    List (String × List Binary64) → m (Except Fault Unit)
  | [] => return .ok ()
  | (name, values) :: rest => do
    match ← writeSeries host directory name values with
    | .error fault => return .error fault
    | .ok () => writeAllSeries host directory rest

def create (host : Host m) (directory : String) : m (Except Fault Report) := do
  match ← writeInto host directory tableName (tableText []) with
  | .ok () => return .ok ⟨directory, []⟩
  | .error fault => return .error fault

/-- Appends the row of an episode and writes its histories. -/
def record (host : Host m) (report : Report) (info : RunInfo) (metrics : EpisodeMetrics Binary64)
    (unplaced nanoseconds : Nat) : m (Except Fault Report) := do
  let rows := report.rows ++ [EpisodeRow.ofEpisode info metrics unplaced nanoseconds]
  match ← writeInto host report.directory tableName (tableText rows) with
  | .error fault => return .error fault
  | .ok () =>
    match ← writeAllSeries host report.directory (series info metrics) with
    | .error fault => return .error fault
    | .ok () => return .ok ⟨report.directory, rows⟩

end Report
end FogDispatch
