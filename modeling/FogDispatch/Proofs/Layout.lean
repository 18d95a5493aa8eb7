import FogDispatch.Number.Binary64
import FogDispatch.Topology
import Mathlib.Data.List.Forall2
import Mathlib.Tactic

/-!
# The layout of a topology

A plan gives a topology if and only if its fog nodes can be drawn and a placement
target and the gateway are left once the devices that can not run tasks are gone.
What is left out only moves the later devices forward: the positions of the nodes
are still their numbers, the gateway is the last node, and each of the three kinds
still has the datacenter that the plan gives it.
-/

namespace FogDispatch

/-! ## Draws -/

namespace Generator

theorem below_succ (bound attempts : Nat) (g : Generator) :
    below bound (attempts + 1) g =
      if g.next.1.toNat * bound % 2 ^ 64 ≤
          bound * 2 ^ (63 - Nat.log2 bound) - 1 then
        (g.next.1.toNat * bound / 2 ^ 64, g.next.2)
      else below bound attempts g.next.2 := rfl

/-- A refused word is not used, and of a word that is used only the upper half of
its product with the bound is. -/
theorem below_lt {bound : Nat} (hbound : 0 < bound) (attempts : Nat)
    (g : Generator) : (below bound attempts g).1 < bound := by
  induction attempts generalizing g with
  | zero => exact hbound
  | succ attempts ih =>
      rw [below_succ]
      split
      next =>
        apply Nat.div_lt_of_lt_mul
        exact Nat.mul_lt_mul_of_pos_right g.next.1.toNat_lt hbound
      next => exact ih g.next.2

@[simp] theorem length_draw (bound count : Nat) (g : Generator) :
    (draw bound count g).length = count := by
  induction count generalizing g with
  | zero => rfl
  | succ count ih => simp [draw, ih]

theorem lt_of_mem_draw {bound count number : Nat} {g : Generator}
    (hbound : 0 < bound) (hnumber : number ∈ draw bound count g) :
    number < bound := by
  induction count generalizing g with
  | zero => cases hnumber
  | succ count ih =>
      rcases List.mem_cons.mp hnumber with rfl | hlater
      · exact below_lt hbound patience g
      · exact ih hlater

end Generator

theorem forall₂_filterMap {β γ : Type} {pick : β → Option γ} {items : List β}
    (hpick : ∀ item ∈ items, ∃ picked, pick item = some picked) :
    List.Forall₂ (fun item picked => pick item = some picked) items
      (items.filterMap pick) := by
  induction items with
  | nil => exact .nil
  | cons item rest ih =>
      obtain ⟨picked, hitem⟩ := hpick item List.mem_cons_self
      rw [List.filterMap_cons_some hitem]
      exact .cons hitem (ih fun other hother =>
        hpick other (List.mem_cons_of_mem item hother))

/-! ## The devices of a plan -/

namespace TopologyPlan

variable {α : Type}

/-- The drawn places in the catalogue, one for each fog node. -/
def draws (plan : TopologyPlan α) : List Nat :=
  Generator.draw plan.fogCatalogue.length plan.fogNodes
    (Generator.ofSeed plan.seed)

theorem forall₂_drawnFog {plan : TopologyPlan α}
    (hcatalogue : ¬(plan.fogCatalogue = [] ∧ 0 < plan.fogNodes)) :
    List.Forall₂ (fun number spec => plan.fogCatalogue[number]? = some spec)
      plan.draws plan.drawnFog := by
  apply forall₂_filterMap
  intro number hnumber
  have hsome : 0 < plan.fogNodes := by
    simpa [draws] using List.length_pos_of_mem hnumber
  have hbound : 0 < plan.fogCatalogue.length :=
    List.length_pos_iff.mpr fun hempty => hcatalogue ⟨hempty, hsome⟩
  exact ⟨_, List.getElem?_eq_getElem (Generator.lt_of_mem_draw hbound hnumber)⟩

theorem mem_fogCatalogue {plan : TopologyPlan α} {spec : NodeSpec α}
    (hspec : spec ∈ plan.drawnFog) : spec ∈ plan.fogCatalogue := by
  obtain ⟨number, _, hnumber⟩ := List.mem_filterMap.mp hspec
  exact List.mem_of_getElem? hnumber

/-- Devices of one kind share a datacenter, which no other kind has. -/
def datacenterOf (plan : TopologyPlan α) : NodeKind → DatacenterId
  | .cloud => ⟨0⟩
  | .fog => plan.fogDatacenter
  | .gateway => plan.gatewayDatacenter

theorem datacenterOf_eq_cloud (plan : TopologyPlan α) {kind : NodeKind}
    (hkind : kind = .cloud → 0 < plan.cloudNodes) :
    some (plan.datacenterOf kind) = plan.cloudDatacenter ↔ kind = .cloud := by
  unfold cloudDatacenter
  cases kind with
  | cloud => simp [hkind rfl, datacenterOf]
  | fog =>
      by_cases hcloud : 0 < plan.cloudNodes <;>
        simp [hcloud, datacenterOf, fogDatacenter]
  | gateway =>
      by_cases hcloud : 0 < plan.cloudNodes <;>
        simp [hcloud, datacenterOf, gatewayDatacenter]

theorem datacenterOf_ne_gateway (plan : TopologyPlan α) {kind : NodeKind}
    (hkind : kind ≠ .gateway) :
    plan.datacenterOf kind ≠ plan.gatewayDatacenter := by
  cases kind with
  | cloud => simp [datacenterOf, gatewayDatacenter]
  | fog =>
      intro hsame
      have hnumber := congrArg DatacenterId.number hsame
      simp [datacenterOf, gatewayDatacenter] at hnumber
  | gateway => contradiction

variable [Arith α]

/-- The placement targets: the sound cloud nodes and then the sound fog nodes in
the order of the draws. -/
def targets (plan : TopologyPlan α) : List (NodeKind × NodeSpec α) :=
  ((List.replicate plan.cloudNodes plan.cloud).filter NodeSpec.isSound).map
      (NodeKind.cloud, ·) ++
    (plan.drawnFog.filter NodeSpec.isSound).map (NodeKind.fog, ·)

def soundGateway (plan : TopologyPlan α) : List (NodeKind × NodeSpec α) :=
  if plan.gateway.isSound then [(.gateway, plan.gateway)] else []

theorem targets_eq_nil {plan : TopologyPlan α} :
    plan.targets = [] ↔
      ∀ spec ∈ List.replicate plan.cloudNodes plan.cloud ++ plan.drawnFog,
        spec.isSound = false := by
  simp only [targets, List.append_eq_nil_iff, List.map_eq_nil_iff,
    List.filter_eq_nil_iff, List.forall_mem_append, Bool.not_eq_true]

theorem kind_of_mem_targets {plan : TopologyPlan α}
    {device : NodeKind × NodeSpec α} (hdevice : device ∈ plan.targets) :
    device.1 ≠ .gateway ∧ (device.1 = .cloud → 0 < plan.cloudNodes) := by
  rcases List.mem_append.mp hdevice with hcloud | hfog
  · obtain ⟨spec, hspec, rfl⟩ := List.mem_map.mp hcloud
    have hreplicate := (List.mem_replicate.mp (List.mem_filter.mp hspec).1).1
    exact ⟨by simp, fun _ => Nat.pos_of_ne_zero hreplicate⟩
  · obtain ⟨spec, _, rfl⟩ := List.mem_map.mp hfog
    simp

/-- The nodes that devices become, numbered by their positions. -/
def numbered (plan : TopologyPlan α) (devices : List (NodeKind × NodeSpec α)) :
    List (Node α) :=
  devices.mapIdx fun index (kind, spec) =>
    Node.ofSpec index (plan.datacenterOf kind) kind spec

omit [Arith α] in
theorem mem_numbered {plan : TopologyPlan α}
    {devices : List (NodeKind × NodeSpec α)} {node : Node α}
    (hnode : node ∈ plan.numbered devices) :
    ∃ device ∈ devices,
      node.kind = device.1 ∧ node.datacenter = plan.datacenterOf device.1 := by
  obtain ⟨index, hindex, rfl⟩ := List.mem_mapIdx.mp hnode
  exact ⟨devices[index], List.getElem_mem hindex, rfl, rfl⟩

omit [Arith α] in
theorem numbered_append (plan : TopologyPlan α)
    (front : List (NodeKind × NodeSpec α)) (last : NodeKind × NodeSpec α) :
    plan.numbered (front ++ [last]) =
      plan.numbered front ++
        [Node.ofSpec front.length (plan.datacenterOf last.1) last.1 last.2] := by
  simp [numbered, List.mapIdx_append]

omit [Arith α] in
theorem map_kind_numbered (plan : TopologyPlan α)
    (devices : List (NodeKind × NodeSpec α)) :
    (plan.numbered devices).map Node.kind = devices.map Prod.fst := by
  apply List.ext_getElem?
  intro index
  simp only [numbered, List.getElem?_map, List.getElem?_mapIdx, Option.map_map]
  rfl

theorem isCandidate_of_mem_targets {plan : TopologyPlan α} {node : Node α}
    (hnode : node ∈ plan.numbered plan.targets) : node.isCandidate = true := by
  obtain ⟨device, hdevice, hkind, _⟩ := mem_numbered hnode
  simp [Node.isCandidate, hkind, (kind_of_mem_targets hdevice).1]

theorem filter_devices (plan : TopologyPlan α) :
    plan.devices.filter (·.2.2.isSound) =
      (plan.targets ++ plan.soundGateway).map fun device =>
        (plan.datacenterOf device.1, device) := by
  have hreplicate : List.replicate plan.cloudNodes
      ((⟨0⟩ : DatacenterId), NodeKind.cloud, plan.cloud) =
        (List.replicate plan.cloudNodes plan.cloud).map
          fun spec => (⟨0⟩, .cloud, spec) := by rw [List.map_replicate]
  simp only [devices, targets, soundGateway, List.filter_append,
    List.map_append]
  congr 1
  · congr 1
    · rw [hreplicate, List.filter_map, List.map_map]
      rfl
    · rw [List.filter_map, List.map_map]
      rfl
  · cases hgateway : plan.gateway.isSound <;> simp [hgateway, datacenterOf]

theorem nodes_ofPlanUnchecked (plan : TopologyPlan α) :
    (Topology.ofPlanUnchecked plan).nodes =
      plan.numbered (plan.targets ++ plan.soundGateway) := by
  apply List.ext_getElem?
  intro index
  simp only [Topology.ofPlanUnchecked, filter_devices, numbered,
    List.getElem?_mapIdx, List.getElem?_map, Option.map_map]
  rfl

theorem candidates_ofPlanUnchecked (plan : TopologyPlan α) :
    (Topology.ofPlanUnchecked plan).candidates =
      plan.numbered plan.targets := by
  have htargets : (plan.numbered plan.targets).filter Node.isCandidate =
      plan.numbered plan.targets :=
    List.filter_eq_self.mpr fun _ => isCandidate_of_mem_targets
  rw [Topology.candidates, nodes_ofPlanUnchecked]
  unfold soundGateway
  split
  next =>
    rw [numbered_append, List.filter_append, htargets]
    simp [Node.isCandidate, Node.ofSpec]
  next => rw [List.append_nil, htargets]

/-- The gateway of a plan, behind all placement targets. -/
def gatewayNode (plan : TopologyPlan α) : Node α :=
  Node.ofSpec plan.targets.length plan.gatewayDatacenter .gateway plan.gateway

theorem gateway?_ofPlanUnchecked (plan : TopologyPlan α) :
    (Topology.ofPlanUnchecked plan).gateway? =
      if plan.gateway.isSound then some plan.gatewayNode else none := by
  have htargets : (plan.numbered plan.targets).find? (·.kind == .gateway) =
      none := by
    rw [List.find?_eq_none]
    intro node hnode
    simpa [Node.isCandidate] using isCandidate_of_mem_targets hnode
  rw [Topology.gateway?, nodes_ofPlanUnchecked]
  unfold soundGateway
  split
  next =>
    rw [numbered_append, List.find?_append, htargets, Option.none_or]
    exact List.find?_cons_of_pos (by simp [Node.ofSpec])
  next => rw [List.append_nil, htargets]

end TopologyPlan

namespace Topology

variable {α : Type} [Arith α]

/-- A plan fails for the first of three reasons that holds. -/
theorem ofPlan_eq (plan : TopologyPlan α) :
    ofPlan plan =
      if plan.fogCatalogue = [] ∧ 0 < plan.fogNodes then .error .emptyCatalogue
      else if plan.targets = [] then .error .noCandidate
      else if plan.gateway.isSound then .ok (ofPlanUnchecked plan)
      else .error .noGateway := by
  have hnumbered : plan.numbered plan.targets = [] ↔ plan.targets = [] := by
    simp [TopologyPlan.numbered]
  simp only [ofPlan, List.isEmpty_iff, plan.candidates_ofPlanUnchecked,
    plan.gateway?_ofPlanUnchecked, hnumbered]
  cases plan.gateway.isSound <;> rfl

theorem exists_gateway_of_ofPlan {plan : TopologyPlan α}
    {topology : Topology α} (hplan : ofPlan plan = .ok topology) :
    ∃ gateway, topology.gateway? = some gateway := by
  rw [ofPlan_eq] at hplan
  split at hplan
  next => cases hplan
  next =>
    split at hplan
    next => cases hplan
    next =>
      split at hplan
      next hsound =>
        cases hplan
        exact ⟨_, by rw [plan.gateway?_ofPlanUnchecked, if_pos hsound]⟩
      next => cases hplan

theorem ofPlan_error_iff (plan : TopologyPlan α) :
    (∃ fault, ofPlan plan = .error fault) ↔
      (plan.fogCatalogue = [] ∧ 0 < plan.fogNodes) ∨ plan.targets = [] ∨
        plan.gateway.isSound = false := by
  rw [ofPlan_eq]
  split
  next hcatalogue => simp [hcatalogue]
  next hcatalogue =>
    split
    next htargets => simp [htargets]
    next htargets =>
      cases hsound : plan.gateway.isSound with
      | false => simp
      | true => simp [hcatalogue, htargets]

/-- The nodes of a topology are laid out as a plan asks for them. -/
structure LaidOut (topology : Topology α) (plan : TopologyPlan α) : Prop where
  /-- Each fog node asked for is a drawn entry of the catalogue. -/
  drawn : plan.draws.length = plan.fogNodes ∧
    List.Forall₂ (fun number spec => plan.fogCatalogue[number]? = some spec)
      plan.draws plan.drawnFog
  nodes_eq : topology.nodes =
    plan.numbered (plan.targets ++ [(.gateway, plan.gateway)])
  position : ∀ (index : Nat) (node : Node α),
    topology.nodes[index]? = some node →
      node.id = ⟨index⟩ ∧ node.host = index ∧ node.state = .idle
  /-- The last node is the one gateway, and no candidate is in its datacenter. -/
  gateway_last : ∃ gateway, topology.gateway? = some gateway ∧
    topology.nodes = topology.candidates ++ [gateway] ∧
    gateway.kind = .gateway ∧
    ∀ node ∈ topology.candidates,
      node.kind ≠ .gateway ∧ node.datacenter ≠ gateway.datacenter
  /-- A candidate is found by its number. -/
  candidates_found : topology.candidateIds.map topology.node? =
    topology.candidates.map some
  cloud_datacenter : ∀ node ∈ topology.nodes,
    some node.datacenter = topology.cloudDatacenter ↔ node.kind = .cloud
  /-- The constants of the cloud are those of the way to a cloud node, and only
  of that. -/
  delay : ∀ (links : NetworkPlan α) (size : α), ∀ node ∈ topology.nodes,
    (Network.ofPlan links topology.cloudDatacenter).transferDelay
        node.datacenter size =
      if node.kind = .cloud then
        ⟨links.cloudLatency + size / (links.cloudUpload / Arith.ofNat 8)⟩
      else ⟨links.fogLatency + size / (links.fogUpload / Arith.ofNat 8)⟩

omit [Arith α] in
theorem node?_id_of_mem {topology : Topology α}
    (hposition : ∀ (index : Nat) (node : Node α),
      topology.nodes[index]? = some node → node.id = ⟨index⟩)
    {node : Node α} (hnode : node ∈ topology.nodes) :
    topology.node? node.id = some node := by
  obtain ⟨index, hindex⟩ := List.mem_iff_getElem?.mp hnode
  rw [hposition index node hindex]
  exact hindex

theorem kind_of_mem_ofPlanUnchecked {plan : TopologyPlan α} {node : Node α}
    (hnode : node ∈ (ofPlanUnchecked plan).nodes) :
    node.datacenter = plan.datacenterOf node.kind ∧
      (node.kind = .cloud → 0 < plan.cloudNodes) := by
  rw [plan.nodes_ofPlanUnchecked] at hnode
  obtain ⟨device, hdevice, hkind, hdatacenter⟩ :=
    TopologyPlan.mem_numbered hnode
  rw [hkind]
  refine ⟨hdatacenter, ?_⟩
  rcases List.mem_append.mp hdevice with htarget | hgateway
  · exact (TopologyPlan.kind_of_mem_targets htarget).2
  · unfold TopologyPlan.soundGateway at hgateway
    split at hgateway
    next =>
      obtain rfl := List.mem_singleton.mp hgateway
      intro hcloud
      cases hcloud
    next => cases hgateway

theorem laidOut_ofPlanUnchecked {plan : TopologyPlan α}
    (hcatalogue : ¬(plan.fogCatalogue = [] ∧ 0 < plan.fogNodes))
    (hsound : plan.gateway.isSound = true) :
    (ofPlanUnchecked plan).LaidOut plan := by
  have hnodes : (ofPlanUnchecked plan).nodes =
      plan.numbered (plan.targets ++ [(.gateway, plan.gateway)]) := by
    rw [plan.nodes_ofPlanUnchecked, TopologyPlan.soundGateway, if_pos hsound]
  have hposition : ∀ (index : Nat) (node : Node α),
      (ofPlanUnchecked plan).nodes[index]? = some node →
        node.id = ⟨index⟩ ∧ node.host = index ∧ node.state = .idle := by
    intro index node hnode
    unfold ofPlanUnchecked at hnode
    simp only [List.getElem?_mapIdx, Option.map_eq_some_iff] at hnode
    obtain ⟨device, _, rfl⟩ := hnode
    exact ⟨rfl, rfl, rfl⟩
  have hcloud : ∀ node ∈ (ofPlanUnchecked plan).nodes,
      some node.datacenter = (ofPlanUnchecked plan).cloudDatacenter ↔
        node.kind = .cloud := by
    intro node hnode
    obtain ⟨hdatacenter, hasked⟩ := kind_of_mem_ofPlanUnchecked hnode
    rw [hdatacenter]
    exact plan.datacenterOf_eq_cloud hasked
  constructor
  case drawn =>
    exact ⟨by simp [TopologyPlan.draws],
      TopologyPlan.forall₂_drawnFog hcatalogue⟩
  case nodes_eq => exact hnodes
  case position => exact hposition
  case gateway_last =>
    refine ⟨plan.gatewayNode, ?_, ?_, rfl, ?_⟩
    · rw [plan.gateway?_ofPlanUnchecked, if_pos hsound]
    · rw [hnodes, plan.candidates_ofPlanUnchecked,
        TopologyPlan.numbered_append]
      rfl
    · intro node hnode
      have hkind : node.kind ≠ .gateway := by
        simpa [Node.isCandidate] using (List.mem_filter.mp hnode).2
      refine ⟨hkind, ?_⟩
      have hmem := (List.mem_filter.mp hnode).1
      rw [(kind_of_mem_ofPlanUnchecked hmem).1]
      exact plan.datacenterOf_ne_gateway hkind
  case candidates_found =>
    unfold candidateIds
    rw [List.map_map]
    apply List.map_congr_left
    intro node hnode
    exact node?_id_of_mem (fun index other hother =>
      (hposition index other hother).1) (List.mem_filter.mp hnode).1
  case cloud_datacenter => exact hcloud
  case delay =>
    intro links size node hnode
    have hiff := hcloud node hnode
    unfold Network.transferDelay Network.ofPlan
    simp only [hiff]

/-- Building the nodes of a plan fails only if nothing can be drawn, no target is
left or the gateway can not run tasks, and else lays the nodes out as planned. -/
theorem ofPlan_lays_out (plan : TopologyPlan α) :
    ((∃ fault, ofPlan plan = .error fault) ↔
      (plan.fogCatalogue = [] ∧ 0 < plan.fogNodes) ∨
        (∀ spec ∈ List.replicate plan.cloudNodes plan.cloud ++ plan.drawnFog,
          spec.isSound = false) ∨
        plan.gateway.isSound = false) ∧
      ∀ topology, ofPlan plan = .ok topology → topology.LaidOut plan := by
  rw [← TopologyPlan.targets_eq_nil]
  refine ⟨ofPlan_error_iff plan, ?_⟩
  intro topology hplan
  rw [ofPlan_eq] at hplan
  split at hplan
  next => cases hplan
  next hcatalogue =>
    split at hplan
    next => cases hplan
    next =>
      split at hplan
      next hsound =>
        cases hplan
        exact laidOut_ofPlanUnchecked hcatalogue hsound
      next => cases hplan

def deviceAt (mips : Binary64) : NodeSpec Binary64 :=
  ⟨mips, none, Arith.ofNat 8, Arith.ofNat 8, Arith.ofNat 2, Arith.one⟩

/-- Cloud nodes are asked for, but their speed is undefined. -/
def cloudlessPlan : TopologyPlan Binary64 where
  seed := "stripy zebra"
  cloudNodes := 2
  cloud := deviceAt (Arith.ofLiteral (.undefined false))
  fogNodes := 4
  fogCatalogue := [deviceAt Arith.one,
    deviceAt (Arith.ofLiteral (.infinite false))]
  gateway := deviceAt Arith.one

/-- Whichever entries are drawn, the fog nodes come first then, and their
datacenter is still not the one that was meant for cloud nodes. -/
theorem cloudlessPlan_laid_out : ∃ topology,
    ofPlan cloudlessPlan = .ok topology ∧ topology.LaidOut cloudlessPlan ∧
      topology.nodes.map Node.kind = [.fog, .fog, .fog, .fog, .gateway] ∧
      topology.cloudDatacenter = some ⟨0⟩ := by
  have hcatalogue : ¬(cloudlessPlan.fogCatalogue = [] ∧
      0 < cloudlessPlan.fogNodes) := by simp [cloudlessPlan]
  have hgateway : cloudlessPlan.gateway.isSound = true := by decide
  have hclouds : (List.replicate cloudlessPlan.cloudNodes
      cloudlessPlan.cloud).filter NodeSpec.isSound = [] := by decide
  have hentries : ∀ spec ∈ cloudlessPlan.fogCatalogue,
      spec.isSound = true := by decide
  have hdrawn : cloudlessPlan.drawnFog.length = 4 := by
    rw [← (TopologyPlan.forall₂_drawnFog hcatalogue).length_eq]
    exact Generator.length_draw _ _ _
  have htargets : cloudlessPlan.targets.map Prod.fst =
      [.fog, .fog, .fog, .fog] := by
    have hfog : cloudlessPlan.drawnFog.filter NodeSpec.isSound =
        cloudlessPlan.drawnFog :=
      List.filter_eq_self.mpr fun spec hspec =>
        hentries spec (TopologyPlan.mem_fogCatalogue hspec)
    simp [TopologyPlan.targets, hclouds, hfog, hdrawn, Function.comp_def]
  have hplan : ofPlan cloudlessPlan = .ok (ofPlanUnchecked cloudlessPlan) := by
    rw [ofPlan_eq, if_neg hcatalogue, if_neg, if_pos hgateway]
    intro hnone
    rw [hnone] at htargets
    cases htargets
  have hlaid := (ofPlan_lays_out cloudlessPlan).2 _ hplan
  refine ⟨_, hplan, hlaid, ?_, rfl⟩
  rw [hlaid.nodes_eq, TopologyPlan.map_kind_numbered, List.map_append, htargets]
  rfl

end Topology
end FogDispatch
