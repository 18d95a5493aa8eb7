import FogDispatch.Proofs.Consultation

/-!
# What an action names

An action is a list of numbers, of which the first one or two are read, by the
kind of strategy.  They are places: of a task among the offered ones, of a node
among the candidates.  An action points at a task and a node exactly when none
of the numbers that it needs is missing or out of range, and numbers beyond
those are not looked at.
-/

namespace FogDispatch

namespace Strategy

/-- The action points at the places of a task and a node, out of so many offered
tasks and candidate nodes.  A placement is always of the first offered task. -/
inductive Points (tasks nodes : Nat) :
    StrategyKind → List Int → Nat → Nat → Prop
  | placement {node : Nat} {rest : List Int} (htask : 0 < tasks)
      (hnode : node < nodes) :
      Points tasks nodes .placement (node :: rest) 0 node
  | joint {task node : Nat} {rest : List Int} (htask : task < tasks)
      (hnode : node < nodes) :
      Points tasks nodes .joint (task :: node :: rest) task node

/-- A number is missing, negative or not below the bound. -/
def OutOf (bound : Nat) (number : Option Int) : Prop :=
  number = none ∨
    ∃ index, number = some index ∧ (index < 0 ∨ (bound : Int) ≤ index)

/-- One of the numbers that the kind needs is out of its range. -/
def Amiss (tasks nodes : Nat) (kind : StrategyKind) (action : List Int) :
    Prop :=
  match kind with
  | .placement => OutOf nodes action[0]?
  | .joint => OutOf tasks action[0]? ∨ OutOf nodes action[1]?

theorem not_outOf_iff {bound : Nat} {number : Option Int} :
    ¬ OutOf bound number ↔
      ∃ index : Nat, number = some ↑index ∧ index < bound := by
  constructor
  · intro hwithin
    simp only [OutOf, not_or, not_exists, not_and] at hwithin
    obtain ⟨hpresent, hrange⟩ := hwithin
    obtain ⟨index, rfl⟩ := Option.ne_none_iff_exists'.mp hpresent
    obtain ⟨hnonneg, hbelow⟩ := hrange index rfl
    exact ⟨index.toNat, congrArg some (by omega), by omega⟩
  · rintro ⟨index, rfl, hbelow⟩ (hmissing | ⟨other, hother, hout⟩)
    · cases hmissing
    · obtain rfl := Option.some.inj hother
      omega

/-- An action points somewhere unless one of its numbers is amiss. -/
theorem exists_points_iff {tasks nodes : Nat} {kind : StrategyKind}
    {action : List Int} (htasks : 0 < tasks) :
    (∃ i j, Points tasks nodes kind action i j) ↔
      ¬ Amiss tasks nodes kind action := by
  cases kind with
  | placement =>
      rw [Amiss, not_outOf_iff]
      constructor
      · rintro ⟨i, j, hpoints⟩
        cases hpoints with
        | placement _ hnode => exact ⟨j, rfl, hnode⟩
      · rintro ⟨j, haction, hnode⟩
        obtain ⟨first, rest, rfl⟩ := List.exists_cons_of_ne_nil (l := action)
          (by rintro rfl; cases haction)
        obtain rfl := Option.some.inj haction
        exact ⟨0, j, .placement htasks hnode⟩
  | joint =>
      rw [Amiss, not_or, not_outOf_iff, not_outOf_iff]
      constructor
      · rintro ⟨i, j, hpoints⟩
        cases hpoints with
        | joint htask hnode => exact ⟨⟨i, rfl, htask⟩, j, rfl, hnode⟩
      · rintro ⟨⟨i, hfirst, htask⟩, j, hsecond, hnode⟩
        match action, hfirst, hsecond with
        | first :: second :: rest, hfirst, hsecond =>
            obtain rfl := Option.some.inj hfirst
            obtain rfl := Option.some.inj hsecond
            exact ⟨i, j, .joint htask hnode⟩

namespace Points

variable {tasks nodes i j : Nat} {kind : StrategyKind} {action : List Int}

theorem lt (hpoints : Points tasks nodes kind action i j) :
    i < tasks ∧ j < nodes := by
  cases hpoints <;> exact ⟨‹_›, ‹_›⟩

theorem unique {i' j' : Nat} (hpoints : Points tasks nodes kind action i j)
    (hother : Points tasks nodes kind action i' j') : i' = i ∧ j' = j := by
  cases hpoints with
  | placement => cases hother; exact ⟨rfl, rfl⟩
  | joint => cases hother; exact ⟨rfl, rfl⟩

/-- Minus one points nowhere. -/
theorem head?_ne (hpoints : Points tasks nodes kind action i j) :
    action.head? ≠ some (-1) := by
  cases hpoints <;>
    · rw [List.head?_cons, ne_eq, Option.some.injEq]
      omega

end Points

theorem pick?_eq_some_iff {β : Type} {items : List β} {index : Int} {item : β} :
    pick? items index = some item ↔
      ∃ place : Nat, index = place ∧ items[place]? = some item := by
  unfold pick?
  constructor
  · intro hpick
    split at hpick
    next hnonneg => exact ⟨index.toNat, by omega, hpick⟩
    next => cases hpick
  · rintro ⟨place, rfl, hitem⟩
    rw [if_pos (Int.natCast_nonneg place), Int.toNat_natCast]
    exact hitem

/-- An action is read as the task and the node that it points at. -/
theorem resolve?_eq_some_iff {kind : StrategyKind} {offered : List TaskId}
    {nodes : List NodeId} {action : List Int} {id : TaskId} {place : NodeId} :
    resolve? kind offered nodes action = some (id, place) ↔
      ∃ i j, Points offered.length nodes.length kind action i j ∧
        offered[i]? = some id ∧ nodes[j]? = some place := by
  have hlt : ∀ {β : Type} {items : List β} {index : Nat} {item : β},
      items[index]? = some item → index < items.length :=
    fun hitem => (List.getElem?_eq_some_iff.mp hitem).1
  cases action with
  | nil =>
      constructor
      · intro hresolved
        cases hresolved
      · rintro ⟨i, j, hpoints, _⟩
        cases hpoints
  | cons first rest =>
      cases kind with
      | placement =>
          simp only [resolve?, Option.bind_eq_bind, Option.bind_eq_some_iff,
            Option.pure_def, Option.some.injEq, Prod.mk.injEq,
            pick?_eq_some_iff]
          constructor
          · rintro ⟨node, ⟨j, rfl, hnode⟩, task, htask, rfl, rfl⟩
            rw [List.head?_eq_getElem?] at htask
            exact ⟨0, j, .placement (hlt htask) (hlt hnode), htask, hnode⟩
          · rintro ⟨i, j, hpoints, htask, hnode⟩
            cases hpoints with
            | placement _ _ =>
                rw [← List.head?_eq_getElem?] at htask
                exact ⟨place, ⟨j, rfl, hnode⟩, id, htask, rfl, rfl⟩
      | joint =>
          simp only [resolve?, Option.bind_eq_bind, Option.bind_eq_some_iff,
            Option.pure_def, Option.some.injEq, Prod.mk.injEq,
            pick?_eq_some_iff]
          constructor
          · rintro ⟨task, ⟨i, rfl, htask⟩, second, hsecond, node,
              ⟨j, rfl, hnode⟩, rfl, rfl⟩
            obtain ⟨more, rfl⟩ := List.head?_eq_some_iff.mp hsecond
            exact ⟨i, j, .joint (hlt htask) (hlt hnode), htask, hnode⟩
          · rintro ⟨i, j, hpoints, htask, hnode⟩
            cases hpoints with
            | joint _ _ =>
                exact ⟨id, ⟨i, rfl, htask⟩, j, rfl, place, ⟨j, rfl, hnode⟩,
                  rfl, rfl⟩

end Strategy
end FogDispatch
