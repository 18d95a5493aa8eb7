import FogDispatch.Host
import FogDispatch.Proofs.Consultation

/-!
# Recorded requests

A policy is put under record by writing every request down before it is passed
on.  What a computation sends to the policy is then what it adds to the record,
so statements about requests are statements about the record of a run.
-/

namespace FogDispatch

variable {α σ β γ : Type}

/-- The policy with a record of the requests that it was sent, the oldest
first. -/
def Policy.recorded (policy : Policy (StateM σ) α) :
    Policy (StateM (List (Request α) × σ)) α where
  ask request := do
    let (sent, memory) ← get
    let (answer, left) := (policy.ask request).run memory
    set (sent ++ [request], left)
    return answer

theorem Policy.recorded_ask (policy : Policy (StateM σ) α)
    (request : Request α) (sent : List (Request α)) (memory : σ) :
    (policy.recorded.ask request).run (sent, memory) =
      (((policy.ask request).run memory).1,
        (sent ++ [request], ((policy.ask request).run memory).2)) := rfl

/-- A program beside the record, which it neither reads nor writes. -/
def unrecorded (program : StateM σ β) : StateM (List (Request α) × σ) β := do
  let (sent, memory) ← get
  let (value, left) := program.run memory
  set (sent, left)
  return value

def Host.recorded (host : Host (StateM σ)) :
    Host (StateM (List (Request α) × σ)) where
  read path := unrecorded (host.read path)
  createDirectory path := unrecorded (host.createDirectory path)
  write path content := unrecorded (host.write path content)
  nanoseconds := unrecorded host.nanoseconds

/-- What a computation sends to a recorded policy. -/
def sentBy (program : StateM (List (Request α) × σ) β) (memory : σ) :
    List (Request α) :=
  (program.run ([], memory)).2.1

/-! ## Programs that send nothing -/

/-- A program that leaves the record as it is. -/
def Silent (program : StateM (List (Request α) × σ) β) : Prop :=
  ∀ before, (program.run before).2.1 = before.1

theorem silent_pure (value : β) :
    Silent (pure value : StateM (List (Request α) × σ) β) :=
  fun _ => rfl

theorem silent_unrecorded (program : StateM σ β) :
    Silent (unrecorded program : StateM (List (Request α) × σ) β) :=
  fun _ => rfl

theorem Silent.bind {first : StateM (List (Request α) × σ) β}
    {rest : β → StateM (List (Request α) × σ) γ} (hfirst : Silent first)
    (hrest : ∀ value, Silent (rest value)) : Silent (first >>= rest) := by
  intro before
  cases hrun : first.run before with
  | mk value middle =>
      rw [run_bind_eq hrun, hrest value middle, ← hfirst before, hrun]

end FogDispatch
