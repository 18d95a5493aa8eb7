import FogDispatch.Proofs.Run

/-!
# Coupled programs

Two programs over memories of one kind are coupled if they leave the same memory
wherever both start, and their values are related.  Two episodes go alike from
event to event, and the loops that deliver the events are coupled, as soon as
every delivery is.
-/

namespace FogDispatch

variable {α β γ δ ε σ : Type}

def Coupled (Related : β → γ → Prop) (first : StateM σ β)
    (second : StateM σ γ) : Prop :=
  ∀ memory, Related (first.run memory).1 (second.run memory).1 ∧
    (second.run memory).2 = (first.run memory).2

namespace Coupled

variable {Related : β → γ → Prop} {Related' : δ → ε → Prop}

theorem pure {value : β} {value' : γ} (hvalue : Related value value') :
    Coupled Related (Pure.pure value : StateM σ β)
      (Pure.pure value' : StateM σ γ) :=
  fun _ => ⟨hvalue, rfl⟩

theorem refl (program : StateM σ β) : Coupled Eq program program :=
  fun _ => ⟨rfl, rfl⟩

theorem bind {first : StateM σ β} {second : StateM σ γ}
    {rest : β → StateM σ δ} {rest' : γ → StateM σ ε}
    (hfirst : Coupled Related first second)
    (hrest : ∀ value value', Related value value' →
      Coupled Related' (rest value) (rest' value')) :
    Coupled Related' (first >>= rest) (second >>= rest') := by
  intro memory
  cases hrun : first.run memory with
  | mk value middle =>
      cases hrun' : second.run memory with
      | mk value' middle' =>
          obtain ⟨hvalue, hmiddle⟩ := hfirst memory
          rw [hrun, hrun'] at hvalue hmiddle
          obtain rfl : middle' = middle := hmiddle
          rw [run_bind_eq hrun, run_bind_eq hrun']
          exact hrest value value' hvalue middle'

end Coupled

/-- Two results that are one value, or two faults. -/
inductive SameResult (Faults : Fault → Fault → Prop) :
    Except Fault β → Except Fault β → Prop
  | error {fault fault' : Fault} (hfaults : Faults fault fault') :
      SameResult Faults (.error fault) (.error fault')
  | ok (value : β) : SameResult Faults (.ok value) (.ok value)

theorem SameResult.eq {one other : Except Fault β}
    (hsame : SameResult Eq one other) : one = other := by
  cases hsame with
  | error hfaults => rw [hfaults]
  | ok value => rfl

theorem SameResult.toOption_eq {Faults : Fault → Fault → Prop}
    {one other : Except Fault β} (hsame : SameResult Faults one other) :
    other.toOption = one.toOption := by
  cases hsame with
  | error _ => rfl
  | ok value => rfl

/-- Results that go with related states. -/
structure SameEnd (Faults : Fault → Fault → Prop)
    (Related : Simulation α → Simulation α → Prop)
    (one other : Except Fault β × Simulation α) : Prop where
  result : SameResult Faults one.1 other.1
  final : Related one.2 other.2

variable [Arith α] {Faults : Fault → Fault → Prop}
  {Related Left : Simulation α → Simulation α → Prop}
  {one other : Policy (StateM σ) α} {ending : EndCondition α}

/-- Two related states have no event left, or deliver the same event alike. -/
def DeliversAlike (Faults : Fault → Fault → Prop)
    (Related : Simulation α → Simulation α → Prop)
    (one other : Policy (StateM σ) α) (ending : EndCondition α)
    (sim sim' : Simulation α) : Prop :=
  (sim.next? ending = none ∧ sim'.next? ending = none) ∨
    ∃ event popped popped',
      sim.next? ending = some (event, popped) ∧
      sim'.next? ending = some (event, popped') ∧
      Coupled (SameEnd Faults Related)
        (popped.deliver one event.target event.message)
        (popped'.deliver other event.target event.message)

theorem Moment.after?_coupled
    (hdeliver : ∀ sim sim', Related sim sim' →
      DeliversAlike Faults Related one other ending sim sim')
    (count : Nat) {first first' : Moment σ α}
    (hsim : Related first.sim first'.sim)
    (hservice : first'.service = first.service) :
    Option.Rel (fun now now' =>
        Related now.sim now'.sim ∧ now'.service = now.service)
      (first.after? one ending count) (first'.after? other ending count) := by
  induction count generalizing first first' with
  | zero => exact .some ⟨hsim, hservice⟩
  | succ count ih =>
      unfold after? next?
      rcases hdeliver _ _ hsim with ⟨hnone, hnone'⟩ |
        ⟨event, popped, popped', hnext, hnext', hcoupled⟩
      · rw [hnone, hnone']
        exact .none
      · rw [hnext, hnext', hservice]
        dsimp only
        obtain ⟨⟨hresult, hafter⟩, hleft⟩ := hcoupled first.service
        cases hrun : (popped.deliver one event.target event.message).run
            first.service with
        | mk delivered left =>
            cases hrun' : (popped'.deliver other event.target
                event.message).run first.service with
            | mk delivered' left' =>
                obtain ⟨result, after⟩ := delivered
                obtain ⟨result', after'⟩ := delivered'
                rw [hrun, hrun'] at hresult hafter hleft
                cases hresult with
                | error _ => exact .none
                | ok _ => exact ih hafter hleft

/-- If deliveries keep states related, the loop leaves states that are related
as broken off and as closed ones are. -/
theorem Simulation.runEvents_coupled
    (hunfinished : Faults .unfinished .unfinished)
    (hbreak : ∀ sim sim', Related sim sim' → Left sim sim')
    (hclose : ∀ sim sim', Related sim sim' →
      Left (sim.closeClock ending) (sim'.closeClock ending))
    (hdeliver : ∀ sim sim', Related sim sim' →
      DeliversAlike Faults Related one other ending sim sim')
    (allotted : Nat) {sim sim' : Simulation α} (hsim : Related sim sim') :
    Coupled (SameEnd Faults Left) (sim.runEvents one ending allotted)
      (sim'.runEvents other ending allotted) := by
  induction allotted generalizing sim sim' with
  | zero => exact .pure ⟨.error hunfinished, hbreak sim sim' hsim⟩
  | succ allotted ih =>
      unfold runEvents
      rcases hdeliver sim sim' hsim with ⟨hnone, hnone'⟩ |
        ⟨event, popped, popped', hnext, hnext', hcoupled⟩
      · rw [hnone, hnone']
        exact .pure ⟨.ok (), hclose sim sim' hsim⟩
      · rw [hnext, hnext']
        refine hcoupled.bind ?_
        rintro ⟨result, after⟩ ⟨result', after'⟩ ⟨hresult, hafter⟩
        cases hresult with
        | error hfaults =>
            exact .pure ⟨.error hfaults, hbreak after after' hafter⟩
        | ok _ => exact ih hafter

theorem Episode.run_coupled (hunfinished : Faults .unfinished .unfinished)
    (hbreak : ∀ sim sim', Related sim sim' → Left sim sim')
    (hclose : ∀ sim sim', Related sim sim' →
      Left (sim.closeClock ending) (sim'.closeClock ending))
    (hdeliver : ∀ sim sim', Related sim sim' →
      DeliversAlike Faults Related one other ending sim sim')
    (hclock : ∀ sim sim', Left sim sim' → sim'.queue.now = sim.queue.now)
    (allotted : Nat) {gateway gateway' : Gateway α} {ctx ctx' : Context α}
    (hstart : Related (initial gateway ctx) (initial gateway' ctx')) :
    Coupled (SameEnd Faults Left)
      (Episode.run allotted one ending gateway ctx)
      (Episode.run allotted other ending gateway' ctx') := by
  unfold Episode.run
  refine (Simulation.runEvents_coupled hunfinished hbreak hclose hdeliver
    allotted hstart).bind ?_
  rintro ⟨result, final⟩ ⟨result', final'⟩ ⟨hresult, hfinal⟩
  cases hresult with
  | error hfaults => exact .pure ⟨.error hfaults, hfinal⟩
  | ok _ =>
      have hsame := hclock final final' hfinal
      apply Coupled.pure
      constructor
      · rw [hsame]
        exact .ok _
      · exact hfinal

end FogDispatch
