import FogDispatch.Service.Client
import FogDispatch.Session
import FogDispatch.Text.Split
import Std.Async.DNS
import Std.Async.TCP

/-!
# The program

The outer layer: files, variables of the environment, connections and the clock, given to the
sessions of the library.
-/

namespace FogDispatch.Program

/-- The content of a file, if it can be read. -/
def readFile (path : String) : IO (Option ByteArray) := do
  try
    return some (← IO.FS.readBinFile path)
  catch _ => return none

def succeeds (effect : IO Unit) : IO Bool := do
  try
    effect
    return true
  catch _ => return false

def host : Host IO where
  read := readFile
  createDirectory := fun path => succeeds (IO.FS.createDirAll path)
  write := fun path content => succeeds (IO.FS.writeFile path content)
  nanoseconds := IO.monoNanosNow

/-- The variables of the environment, with their values. -/
def environment : IO (List (String × String)) := do
  match (← readFile "/proc/self/environ").bind String.fromUTF8? with
  | none => return []
  | some text =>
    return (splitAll '\x00' text.toList).filterMap fun line =>
      (splitFirst? '=' line).map fun (name, value) => (String.ofList name, String.ofList value)

/-- The files that may be meant by the path of a settings file, with their contents. -/
def settingsFiles (path : Option String) : IO (List (String × ByteArray)) := do
  let candidates := path.toList ++ ((path.bind (Location.withExtension? · "toml"))).toList
  candidates.filterMapM fun candidate => do
    return (← readFile candidate).map fun content => (candidate, content)

/-- A name and the number behind the last colon. -/
def splitAddress (address : String) : String × Option Nat :=
  let back := address.toList.reverse
  let number := (back.takeWhile (· != ':')).reverse
  (String.ofList (back.drop (number.length + 1)).reverse, (String.ofList number).toNat?)

def addressesOf (name : String) : IO (List Std.Net.IPAddr) := do
  match Std.Net.IPv4Addr.ofString name with
  | some address => return [.v4 address]
  | none => return (← (Std.Async.DNS.getAddrInfo name "").block).toList

def connectTo (address : String) : IO (Option Std.Async.TCP.Socket.Client) := do
  try
    let (name, number) := splitAddress address
    match number with
    | none => return none
    | some number =>
      if number < 65536 then
        let places : List Std.Net.SocketAddress := (← addressesOf name).map fun
          | .v4 addr => .v4 ⟨addr, number.toUInt16⟩
          | .v6 addr => .v6 ⟨addr, number.toUInt16⟩
        places.findSomeM? fun place => do
          try
            let socket ← Std.Async.TCP.Socket.Client.mk
            (socket.connect place).block
            socket.noDelay
            return some socket
          catch _ => return none
      else return none
  catch _ => return none

/-- Adds what arrives on a connection until a test holds of it or the other side is done. -/
partial def receive (socket : Std.Async.TCP.Socket.Client) (enough : List UInt8 → Bool)
    (bytes : List UInt8) : IO (Option Received) := do
  if enough bytes then return some ⟨bytes, false⟩
  else
    try
      match ← (socket.recv? 65536).block with
      | some chunk => receive socket enough (bytes ++ chunk.toList)
      | none => return some ⟨bytes, true⟩
    catch _ => return none

def within (limit : Nat) {β : Type} (work : IO (Option β)) : IO (Option β) := do
  let task ← IO.asTask work Task.Priority.dedicated
  let ending := (← IO.monoMsNow) + limit
  for _ in [0:limit + 1] do
    if (← IO.hasFinished task) || ending < (← IO.monoMsNow) then break
    IO.sleep 1
  if ← IO.hasFinished task then
    match task.get with
    | .ok value => return value
    | .error _ => return none
  else return none

def link (plan : PolicyPlan) : Link IO Std.Async.TCP.Socket.Client where
  connect := connectTo plan.address
  send := fun socket line => succeeds (socket.send line.toUTF8).block
  receive := receive
  within := within plan.attemptTimeoutMs

def allotted : Nat := 1000000000000000

def simulate (plan : Plan Binary64) : IO (Except Fault Unit) := do
  let link := link plan.policy
  match ← Client.start link plan.policy with
  | .error fault => return .error fault
  | .ok client =>
    let lifted : Host (StateT (Client Std.Async.TCP.Socket.Client) IO) :=
      { read := fun path => host.read path
        createDirectory := fun path => host.createDirectory path
        write := fun path content => host.write path content
        nanoseconds := host.nanoseconds }
    let (result, _) ← (Experiment.run lifted (Client.policy link) allotted plan).run client
    return result.map fun _ => ()

/-- The text of a fault for the standard error. -/
def complaint (fault : Fault) : String :=
  "Error: " ++ fault.message?.getD
    (match fault with
      | .badSettings | .missingLimit | .outOfList => "the configuration can not be used"
      | .storage => "a file can not be written"
      | .badRecords => "a table is not text"
      | .unreachable => "can not connect to decision service"
      | _ => "the episode does not end")

/-- Does what a call asks for and tells the exit code. -/
def perform (call : CommandLine.Invocation) : IO UInt32 := do
  let files ← settingsFiles call.file
  let find := fun path => (files.find? (·.1 == path)).map Prod.snd
  match ← call.perform host find (← environment) simulate with
  | .ok showing =>
    IO.print showing.text
    return 0
  | .error fault =>
    IO.eprintln (complaint fault)
    return fault.exitCode.toUInt32

end FogDispatch.Program

def main (args : List String) : IO UInt32 := do
  match FogDispatch.CommandLine.read args with
  | .invocation call => FogDispatch.Program.perform call
  | .help =>
    IO.print FogDispatch.CommandLine.helpText
    return 0
  | .version =>
    IO.print FogDispatch.CommandLine.versionText
    return 0
  | .refused =>
    IO.eprint FogDispatch.CommandLine.helpText
    return 1
