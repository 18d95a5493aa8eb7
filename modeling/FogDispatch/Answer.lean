import FogDispatch.Fault
import FogDispatch.Plan
import FogDispatch.Text.Blank
import FogDispatch.Text.Split

/-!
# Decision answers

An answer is a text of the form `time,cpu d a0,a1,…`: the measured time of the decision, the load
seen meanwhile, and the numbers of the action.  Blanks around the whole and around each field do not
count.  The measured time is charged to the gateway in proportion to the two speeds.
-/

namespace FogDispatch

/-- How measured decision time becomes simulated time. -/
structure CostModel (α : Type) where
  realMips : α
  simulatedMips : α
  charge : Bool
  deriving DecidableEq, Repr

namespace CostModel

variable {α : Type} [Arith α]

/-- The model of a plan for a gateway of a speed. -/
def ofPlan (plan : GatewayPlan α) (simulatedMips : α) : CostModel α :=
  ⟨plan.realMips, simulatedMips, plan.chargeComputeTime⟩

def simulated (model : CostModel α) (measured : α) : Span α :=
  if model.charge then ⟨measured * model.realMips / model.simulatedMips⟩ else Span.zero

end CostModel

/-- An answer as read. -/
structure Answer (α : Type) where
  /-- The simulated time of the decision. -/
  cost : Span α
  /-- The load seen while deciding. -/
  cpuPercent : α
  action : List Int
  deriving DecidableEq, Repr

namespace Answer

variable {α : Type} [Arith α]

def readField {β : Type} (read : List Char → Except NumberFault β) (field : List Char) :
    Except AnswerFault β :=
  let trimmed := trimBlanks field
  match read trimmed with
  | .ok value => .ok value
  | .error fault => .error (.badField (String.ofList trimmed) fault)

/-- The fields of an answer; of several faults the leftmost one is told. -/
def readChars (model : CostModel α) (cs : List Char) : Except AnswerFault (Answer α) :=
  match splitFirst? 'd' (trimBlanks cs) with
  | none => .error .missingSeparator
  | some (measured, action) =>
    match splitFirst? ',' measured with
    | none => .error .missingComma
    | some (time, cpu) => do
      let time ← readField Literal.read time
      let cpu ← readField Literal.read cpu
      let action ← (splitAll ',' action).mapM (readField Whole.readInt)
      return ⟨model.simulated (Arith.ofLiteral time), Arith.ofLiteral cpu, action⟩

def read (model : CostModel α) (raw : String) : Except Fault (Answer α) :=
  match readChars model raw.toList with
  | .ok answer => .ok answer
  | .error fault => .error (.answer raw fault)

/-- Whether the service found no node able to take any task. -/
def isNoCapacity (answer : Answer α) : Bool := answer.action.head? == some (-1)

end Answer
end FogDispatch
