import FogDispatch.Proofs.Appointments
import FogDispatch.Proofs.Keeping
import FogDispatch.Proofs.Precedence

/-!
# What the service is shown

An observation has six numbers for every offered task, the clock, and four
numbers for every candidate.  All through an episode the candidates are those of
its beginning, up to which of them are busy, and every task that waits or is yet
to arrive belongs to the episode, so the state in a question or in a lesson has
one group of numbers for each offered task and one for each device.
-/

namespace FogDispatch

/-! ## Groups of numbers -/

section

variable {β γ : Type} {view : β → List γ} {width : Nat}
  (hview : ∀ item, (view item).length = width)

include hview

theorem length_flatMap_of_width (items : List β) :
    (items.flatMap view).length = width * items.length := by
  induction items with
  | nil => rfl
  | cons item rest ih =>
      rw [List.flatMap_cons, List.length_append, hview, ih, List.length_cons,
        Nat.mul_succ, Nat.add_comm]

theorem drop_flatMap_of_width (items : List β) (count : Nat) :
    (items.flatMap view).drop (width * count) =
      (items.drop count).flatMap view := by
  induction items generalizing count with
  | nil => simp
  | cons item rest ih =>
      cases count with
      | zero => rfl
      | succ count =>
          rw [List.flatMap_cons, Nat.mul_succ, Nat.add_comm, ← List.drop_drop,
            List.drop_left' (hview item), ih, List.drop_succ_cons]

/-- The group at a place is the view of the item there. -/
theorem take_drop_flatMap_of_width {items : List β} {index : Nat} {item : β}
    (hitem : items[index]? = some item) (rest : List γ) :
    ((items.flatMap view ++ rest).drop (width * index)).take width =
      view item := by
  obtain ⟨hindex, rfl⟩ := List.getElem?_eq_some_iff.mp hitem
  have hwithin : width * index ≤ (items.flatMap view).length := by
    rw [length_flatMap_of_width hview]
    exact Nat.mul_le_mul_left width hindex.le
  rw [List.drop_append_of_le_length hwithin, drop_flatMap_of_width hview,
    List.drop_eq_getElem_cons hindex, List.flatMap_cons, List.append_assoc,
    List.take_left' (hview items[index])]

end

variable {α : Type}

theorem Topology.features_of_reset {topology other : Topology α}
    (hreset : topology.reset = other.reset) :
    topology.candidates.map Node.features =
      other.candidates.map Node.features := by
  have hfeatures : ∀ devices : Topology α,
      devices.reset.candidates.map Node.features =
        devices.candidates.map Node.features := by
    intro devices
    rw [candidates_reset, List.map_map]
    rfl
  rw [← hfeatures topology, hreset, hfeatures]

variable [Arith α]

namespace Strategy

theorem length_taskView (task : Task α) : (taskView task).length = 6 := rfl

theorem length_nodeView (node : Node α) : (nodeView node).length = 4 := rfl

end Strategy

/-- The devices are those of a topology, up to what they run, and the offered
tasks belong to the episode. -/
structure Context.Presents (ctx : Context α) (topology : Topology α)
    (offered : List TaskId) : Prop where
  devices : ctx.topology.reset = topology.reset
  known : ∀ id ∈ offered, (ctx.task? id).isSome = true

namespace Context.Presents

variable {ctx : Context α} {topology : Topology α} {offered : List TaskId}

theorem length_tasks (hpresents : ctx.Presents topology offered) :
    ((offered.filterMap ctx.task?).flatMap Strategy.taskView).length =
      6 * offered.length := by
  rw [length_flatMap_of_width Strategy.length_taskView]
  have hknown : (offered.filterMap ctx.task?).length = offered.length := by
    rw [List.length_filterMap_eq_countP]
    exact List.countP_eq_length.mpr hpresents.known
  rw [hknown]

theorem length_observation (hpresents : ctx.Presents topology offered)
    (now : Time α) :
    (Strategy.observation ctx offered now).length =
      6 * offered.length + 1 + 4 * topology.candidates.length := by
  rw [Strategy.observation, List.length_append, hpresents.length_tasks,
    List.length_cons, length_flatMap_of_width Strategy.length_nodeView,
    Topology.length_candidates_of_reset hpresents.devices]
  omega

/-- The groups of the nodes have the order of the candidates. -/
theorem group_observation (hpresents : ctx.Presents topology offered)
    (now : Time α) {index : Nat} {features : NodeFeatures α}
    (hfeatures : (topology.candidates.map Node.features)[index]? =
      some features) :
    ((Strategy.observation ctx offered now).drop
        (6 * offered.length + 1 + 4 * index)).take 3 =
      [features.mips, features.ram, features.storage] := by
  rw [← Topology.features_of_reset hpresents.devices, List.getElem?_map,
    Option.map_eq_some_iff] at hfeatures
  obtain ⟨node, hnode, rfl⟩ := hfeatures
  obtain ⟨hindex, rfl⟩ := List.getElem?_eq_some_iff.mp hnode
  rw [Strategy.observation, Nat.add_assoc, ← hpresents.length_tasks,
    List.drop_length_add_append, Nat.add_comm, List.drop_succ_cons,
    drop_flatMap_of_width Strategy.length_nodeView,
    List.drop_eq_getElem_cons hindex]
  rfl

end Context.Presents

/-- A state that is observed on the devices of a topology. -/
def Topology.Shown (topology : Topology α) (state : List α) : Prop :=
  ∃ ctx offered now, Context.Presents ctx topology offered ∧
    state = Strategy.observation ctx offered now

/-- A request of an episode, any state in it being observed on the devices of a
topology. -/
def Request.Shows (topology : Topology α) : Request α → Prop
  | .setup _ => False
  | .askDecision _ state => topology.Shown state
  | .retrain _ state => topology.Shown state
  | _ => True

namespace Simulation

/-- The devices are those of a topology, and the tasks that wait and those that
are yet to arrive belong to the episode. -/
structure AtHome (topology : Topology α) (sim : Simulation α) : Prop where
  devices : sim.context.topology.reset = topology.reset
  pending : ∀ id ∈ sim.gateway.pending, id.index < sim.context.tasks.length
  arrivals : ∀ id, 0 < sim.queue.messages.count (.taskArrival id) →
    id.index < sim.context.tasks.length

variable {topology : Topology α} {sim popped : Simulation α}

theorem AtHome.shown (hhome : sim.AtHome topology) :
    topology.Shown sim.view := by
  refine ⟨_, _, _, ⟨?_, fun id hid => ?_⟩, rfl⟩
  · rw [Context.releaseFinished_topology]
    exact hhome.devices
  · rw [Context.releaseFinished_task?]
    have hindex := hhome.pending id (Strategy.mem_offers hid).1
    rw [Context.task?, List.getElem?_eq_getElem hindex]
    rfl

theorem AtHome.hear {ending : EndCondition α} {event : Event α}
    (hhome : sim.AtHome topology)
    (hnext : sim.next? ending = some (event, popped)) :
    (popped.heard event.target event.message).AtHome topology where
  devices := (heard_topology_reset hnext).trans hhome.devices
  pending id hid := by
    rw [heard_length_tasks hnext]
    rw [(heard_next hnext).1, List.mem_append] at hid
    rcases hid with hwaits | harrives
    · exact hhome.pending id hwaits
    · apply hhome.arrivals
      have hcount := arrival_next hnext id
      have hone := List.count_pos_iff.mpr harrives
      omega
  arrivals id hid := by
    rw [heard_length_tasks hnext]
    rw [heard_arrivals] at hid
    apply hhome.arrivals
    have hcount := arrival_next hnext id
    omega

theorem AtHome.settle (hhome : sim.AtHome topology)
    (decision : Option (Decision α)) (strategy : Strategy α)
    {ctx : Context α} (hctx : sim.context.Continues ctx) :
    (sim.settled decision strategy ctx).AtHome topology where
  devices := by
    rw [settled_context, hctx.reset]
    exact hhome.devices
  pending id hid := by
    rw [settled_context, hctx.tasks]
    rw [settled_pending] at hid
    apply hhome.pending
    split at hid
    next => exact List.mem_of_mem_filter hid
    next => exact hid
  arrivals id hid := by
    rw [settled_context, hctx.tasks]
    rw [settled_arrivals] at hid
    exact hhome.arrivals id hid

theorem fitting_atHome (topology : Topology α) :
    Fitting (Request.Shows topology) (AtHome topology) where
  score _ _ := trivial
  question _ _ hhome := hhome.shown
  lesson _ _ hhome := hhome.shown
  heard _ _ _ _ hhome hnext := hhome.hear hnext
  settled _ decision strategy _ hhome hctx :=
    hhome.settle decision strategy hctx

theorem start_atHome {gateway : Gateway α} {ctx : Context α}
    {dataset : Dataset α} (hdataset : dataset.Fresh)
    (hreset : ctx.topology.reset = topology.reset) (episode : Nat) :
    (Episode.initial gateway.reset (ctx.startEpisode episode dataset.jobs
      dataset.tasks)).AtHome topology where
  devices := (Topology.reset_reset ctx.topology).trans hreset
  pending _ hid := absurd hid List.not_mem_nil
  arrivals id hid := by
    have hmem : Message.taskArrival id ∈
        dataset.tasks.map fun task => Message.taskArrival task.id :=
      (Episode.arrivals_messages dataset.tasks).mem_iff.mp
        (List.count_pos_iff.mp hid)
    obtain ⟨task, htask, hsame⟩ := List.mem_map.mp hmem
    obtain ⟨index, hindex⟩ := List.mem_iff_getElem?.mp htask
    obtain rfl := Message.taskArrival.inj hsame
    rw [hdataset.id_eq index task hindex]
    exact (List.getElem?_eq_some_iff.mp hindex).1

end Simulation
end FogDispatch
