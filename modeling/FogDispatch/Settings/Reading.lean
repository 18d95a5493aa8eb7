import FogDispatch.Fault
import FogDispatch.Plan
import FogDispatch.Settings.Value

/-!
# Reading a plan out of settings

Settings are read generously: numbers out of texts and flags, texts out of numbers, and whole
numbers of any size, of which the low bits count.  A record is a table with its fields by name, or a
list with its fields in order.  Names that no field asks for do not matter.
-/

namespace FogDispatch

namespace Binary64

/-- The nearest whole number, a half away from zero, within the range of 64 bits; an undefined
number is zero. -/
def roundToWhole (a : Binary64) : Int :=
  if a.isUndefined then 0
  else if a.isInfinite then (if a.isNegative then -(Whole.maxSigned : Int) - 1 else Whole.maxSigned)
  else
    let (negative, m, q) := a.decode
    let rounded := roundQuotient .upward (m * Nat.pow 2 q.toNat) (Nat.pow 2 (-q).toNat)
    if negative then max (-(rounded : Int)) (-(Whole.maxSigned : Int) - 1)
    else min (rounded : Int) Whole.maxSigned

def ofInt (n : Int) : Binary64 := signed (n < 0) (ofDecimal n.natAbs 0)

end Binary64

namespace Settings.Value

def refused {β : Type} : Except Fault β := .error .badSettings

def toFlag : Value → Except Fault Bool
  | .flag b => .ok b
  | .whole n => .ok (n != 0)
  | .real a => .ok (!Arith.same a (Arith.zero : Binary64))
  | .text s =>
    let word := s.map Char.toLower
    if ["1", "true", "on", "yes"].contains word then .ok true
    else if ["0", "false", "off", "no"].contains word then .ok false
    else refused
  | _ => refused

/-- A setting read as a whole number of 64 bits. -/
def toWhole : Value → Except Fault Int
  | .whole n => .ok n
  | .flag b => .ok (if b then 1 else 0)
  | .real a => .ok a.roundToWhole
  | .text s =>
    let word := s.map Char.toLower
    if ["true", "on", "yes"].contains word then .ok 1
    else if ["false", "off", "no"].contains word then .ok 0
    else match Whole.readInt word.toList with
      | .ok n => .ok n
      | .error _ => refused
  | _ => refused

/-- A setting read as a number without sign: the lowest bits of a whole number. -/
def toNatural (bits : Nat) (value : Value) : Except Fault Nat :=
  value.toWhole.map fun (n : Int) => (n % (Nat.pow 2 bits : Nat)).toNat

def toReal : Value → Except Fault Binary64
  | .real a => .ok a
  | .whole n => .ok (Binary64.ofInt n)
  | .flag b => .ok (if b then Arith.one else Arith.zero)
  | .text s =>
    let word := s.map Char.toLower
    if ["true", "on", "yes"].contains word then .ok Arith.one
    else if ["false", "off", "no"].contains word then .ok Arith.zero
    else match Literal.read word.toList with
      | .ok literal => .ok (Binary64.ofLiteral literal)
      | .error _ => refused
  | _ => refused

def toText : Value → Except Fault String
  | .text s => .ok s
  | .flag b => .ok (if b then "true" else "false")
  | .whole n => .ok (toString n)
  | .real a => .ok (RealStyle.plain.write a)
  | _ => refused

def toListOf {β : Type} (read : Value → Except Fault β) : Value → Except Fault (List β)
  | .list items => items.mapM read
  | _ => refused

def toOptional {β : Type} (read : Value → Except Fault β) : Value → Except Fault (Option β)
  | .nothing => .ok none
  | value => (read value).map some

/-- The name of a choice: a text, or the only name of a table. -/
def toChoice : Value → Except Fault String
  | .text s => .ok s
  | .table [(name, _)] => .ok name
  | _ => refused

end Settings.Value

namespace Settings

/-- The fields of a record, by name or in order. -/
inductive Fields where
  | named (entries : Entries)
  | ordered (items : List Value)

namespace Fields

def ofValue : Value → Except Fault Fields
  | .table entries => .ok (.named entries)
  | .list items => .ok (.ordered items)
  | _ => Value.refused

def get? (fields : Fields) (place : Nat) (name : String) : Option Value :=
  match fields with
  | .named entries => entries.get? name
  | .ordered items => items[place]?

def required {β : Type} (fields : Fields) (place : Nat) (name : String)
    (read : Value → Except Fault β) : Except Fault β :=
  match fields.get? place name with
  | some value => read value
  | none => Value.refused

/-- A field with a value for when it is not there. -/
def withDefault {β : Type} (fields : Fields) (place : Nat) (name : String)
    (read : Value → Except Fault β) (default : β) : Except Fault β :=
  match fields.get? place name with
  | some value => read value
  | none => .ok default

/-- A field that may be left out where fields have names. -/
def optional {β : Type} (fields : Fields) (place : Nat) (name : String)
    (read : Value → Except Fault β) : Except Fault (Option β) :=
  match fields, fields.get? place name with
  | _, some value => value.toOptional read
  | .named _, none => .ok none
  | .ordered _, none => Value.refused

end Fields

namespace Value

def toStrategyKind (value : Value) : Except Fault StrategyKind := do
  match StrategyKind.ofName? (← value.toChoice) with
  | some kind => return kind
  | none => refused

def toFraming (value : Value) : Except Fault Framing := do
  match Framing.ofName? (← value.toChoice) with
  | some framing => return framing
  | none => refused

/-- An end condition.  A time limit needs its time. -/
def toEndCondition (value : Value) : Except Fault (EndCondition Binary64) := do
  match ← value.toChoice with
  | "no_events" => return .drained
  | "time" =>
    match value with
    | .table [(_, limit)] => return .limit ⟨← limit.toReal⟩
    | _ => .error .missingLimit
  | _ => refused

def toStrategyPair (value : Value) : Except Fault StrategyPair := do
  let fields ← Fields.ofValue value
  return {
    kind := ← fields.required 0 "kind" toStrategyKind
    policy := ← fields.required 1 "policy" toText }

def toExperiment (value : Value) : Except Fault ExperimentPlan := do
  let fields ← Fields.ofValue value
  return {
    name := ← fields.required 0 "name" toText
    strategy := ← fields.required 1 "strategy" toStrategyKind
    episodes := ← fields.required 2 "episodes" (toNatural 64)
    seeds := ← fields.required 3 "random_seeds" (toListOf (toNatural 64))
    respectJobs := ← fields.withDefault 4 "respect_job_constraints" toFlag true
    datasets := ← fields.withDefault 5 "datasets" (toListOf toText) []
    fogNodes := ← fields.withDefault 6 "fog_nodes" (toListOf (toNatural 64)) []
    strategies := ← fields.withDefault 7 "strategies" (toListOf toStrategyPair) [] }

def toDataset (value : Value) : Except Fault (DatasetPlan Binary64) := do
  let fields ← Fields.ofValue value
  return {
    path := ← fields.required 0 "path" toText
    runtimeScale := ← fields.withDefault 1 "runtime_scale" toReal Arith.one }

def toNodeSpec (value : Value) : Except Fault (NodeSpec Binary64) := do
  let fields ← Fields.ofValue value
  return {
    mips := ← fields.required 0 "mips" toReal
    hostMips := ← fields.withDefault 1 "host_mips" (toOptional toReal) none
    ram := ← fields.required 2 "ram" toReal
    storage := ← fields.required 3 "storage" toReal
    busyPower := ← fields.required 4 "busy_power" toReal
    idlePower := ← fields.required 5 "idle_power" toReal }

def toTopology (value : Value) : Except Fault (TopologyPlan Binary64) := do
  let fields ← Fields.ofValue value
  return {
    seed := ← fields.required 0 "seed" toText
    cloudNodes := ← fields.required 1 "cloud_nodes" (toNatural 64)
    cloud := ← fields.required 2 "cloud" toNodeSpec
    fogNodes := ← fields.required 3 "fog_nodes" (toNatural 64)
    fogCatalogue := ← fields.required 4 "fog_catalogue" (toListOf toNodeSpec)
    gateway := ← fields.required 5 "gateway" toNodeSpec }

def toNetwork (value : Value) : Except Fault (NetworkPlan Binary64) := do
  let fields ← Fields.ofValue value
  return {
    fogLatency := ← fields.required 0 "fog_latency" toReal
    fogUpload := ← fields.required 1 "fog_upload_bandwidth" toReal
    fogDownload := ← fields.required 2 "fog_download_bandwidth" toReal
    cloudLatency := ← fields.required 3 "cloud_latency" toReal
    cloudUpload := ← fields.required 4 "cloud_upload_bandwidth" toReal
    cloudDownload := ← fields.required 5 "cloud_download_bandwidth" toReal }

def toGateway (value : Value) : Except Fault (GatewayPlan Binary64) := do
  let fields ← Fields.ofValue value
  return {
    realMips := ← fields.required 0 "real_mips" toReal
    chargeComputeTime := ← fields.required 1 "charge_compute_time" toFlag }

def toLearning (value : Value) : Except Fault LearningFlags := do
  let fields ← Fields.ofValue value
  return {
    load := ← fields.optional 0 "load_pretrained_model" toFlag
    training := ← fields.optional 1 "training" toFlag
    save := ← fields.optional 2 "save_final_model" toFlag }

def toPolicy (value : Value) : Except Fault PolicyPlan := do
  let fields ← Fields.ofValue value
  return {
    address := ← fields.required 0 "address" toText
    strategy := ← fields.required 1 "strategy" toText
    maxAttempts := ← fields.required 2 "max_attempts" (toNatural 32)
    attemptTimeoutMs := ← fields.withDefault 3 "attempt_timeout_ms" (toNatural 64) 30000
    framing := ← fields.required 4 "framing" toFraming
    priorities := ← fields.required 5 "priorities_quantity" (toNatural 8)
    learning := ← fields.withDefault 6 "drl" toLearning ⟨none, none, none⟩ }

def toPlan (value : Value) : Except Fault (Plan Binary64) := do
  let fields ← Fields.ofValue value
  return {
    outputDir := ← fields.required 0 "output_dir" toText
    experiment := ← fields.required 1 "experiment" toExperiment
    dataset := ← fields.required 2 "dataset" toDataset
    topology := ← fields.required 3 "topology" toTopology
    network := ← fields.required 4 "network" toNetwork
    gateway := ← fields.required 5 "gateway" toGateway
    policy := ← fields.required 6 "policy" toPolicy
    ending := ← fields.required 7 "until" toEndCondition }

end Value
end Settings
end FogDispatch
