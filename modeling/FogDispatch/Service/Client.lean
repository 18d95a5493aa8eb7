import FogDispatch.Request
import FogDispatch.Service.Frame
import FogDispatch.Wire

/-!
# The client of a decision service

A client keeps one connection to the service and makes one attempt after the other until a request
is answered.  An attempt sends the request line and reads one frame.  An attempt that fails takes
its connection with it, so that a late answer to it is never read as the answer to a later request,
and the next attempt starts with a new connection.
-/

namespace FogDispatch

/-- The bytes of a connection that are not yet read, and whether the service has closed it behind
them. -/
structure Received where
  bytes : List UInt8
  closed : Bool
  deriving DecidableEq, Repr

/-- What a client needs of the network; `κ` is a connection. -/
structure Link (m : Type → Type) (κ : Type) where
  /-- A new connection to the service, if it can be reached. -/
  connect : m (Option κ)
  /-- Sends a line; tells whether it was sent. -/
  send : κ → String → m Bool
  /-- Adds bytes to the unread ones until a test holds of them or the service closes the connection.
  Nothing if the connection fails. -/
  receive : κ → (List UInt8 → Bool) → List UInt8 → m (Option Received)
  /-- Does the work of one attempt as long as its time lasts. -/
  within : {β : Type} → m (Option β) → m (Option β)

/-- An open connection with what was received and not yet read. -/
structure Connection (κ : Type) where
  handle : κ
  unread : List UInt8

/-- A client with its connection, if one is open. -/
structure Client (κ : Type) where
  framing : Framing
  maxAttempts : Nat
  connection : Option (Connection κ)

namespace Client

variable {m : Type → Type} [Monad m] {κ : Type}

/-- The answer in what was received, and what is left unread. -/
def readAnswer? (framing : Framing) (received : Received) : Option (String × List UInt8) :=
  match framing.split? received.bytes with
  | some (payload, rest) => (framing.decode? payload).map fun text => (text, rest)
  | none =>
    if received.closed then (framing.decodeLast? received.bytes).map fun text => (text, [])
    else none

/-- Sends a line and reads the answer to it. -/
def exchange (link : Link m κ) (framing : Framing) (line : String) (connection : Connection κ) :
    m (Option (String × Connection κ)) := do
  if ← link.send connection.handle line then
    match ← link.receive connection.handle framing.isComplete connection.unread with
    | some received =>
      return (readAnswer? framing received).map fun (text, unread) =>
        (text, { connection with unread := unread })
    | none => return none
  else return none

/-- The given connection, or a new one. -/
def reconnect (link : Link m κ) : Option (Connection κ) → m (Option (Connection κ))
  | some connection => return some connection
  | none => do return (← link.connect).map fun handle => ⟨handle, []⟩

/-- One attempt: its answer and the connection that it leaves open. -/
def attempt (link : Link m κ) (framing : Framing) (line : String)
    (connection : Option (Connection κ)) : m (Option (String × Connection κ)) :=
  link.within do
    match ← reconnect link connection with
    | some connection => exchange link framing line connection
    | none => return none

/-- Attempts until one succeeds, at most `left` of them. -/
def attempts (link : Link m κ) (framing : Framing) (line : String) :
    Nat → Option (Connection κ) → m (Option String × Option (Connection κ))
  | 0, connection => return (none, connection)
  | left + 1, connection => do
    match ← attempt link framing line connection with
    | some (text, connection) => return (some text, some connection)
    | none => attempts link framing line left none

def request (link : Link m κ) (line : String) (client : Client κ) :
    m (Except Fault String × Client κ) := do
  let (answer, connection) ← attempts link client.framing line client.maxAttempts client.connection
  let after := { client with connection := connection }
  match answer with
  | some text => return (.ok text, after)
  | none => return (.error (.noAnswer client.maxAttempts), after)

/-- A client whose first connection is open; the service has to be there from the start. -/
def start (link : Link m κ) (plan : PolicyPlan) : m (Except Fault (Client κ)) := do
  match ← link.connect with
  | some handle => return .ok ⟨plan.framing, plan.maxAttempts, some ⟨handle, []⟩⟩
  | none => return .error .unreachable

def policy (link : Link m κ) : Policy (StateT (Client κ) m) Binary64 where
  ask := fun question => request link question.line

end Client
end FogDispatch
