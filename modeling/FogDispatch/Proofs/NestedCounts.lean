import FogDispatch.Proofs.Layout
import FogDispatch.Proofs.Loading

/-!
# Counts of fog nodes

The fog nodes of a plan are the first draws of one sequence, which depends on the
seed and on the length of the catalogue only.  A larger count goes on with the same
sequence, and devices are left out and numbered from the front.  So the candidates
for a count of fog nodes stand, with their numbers, in front of those for any larger
count, and what comes behind them are fog nodes.
-/

namespace FogDispatch

namespace Generator

/-- How often a single draw refuses a word does not matter: both sides refuse the
same words. -/
theorem draw_prefix (bound : Nat) {few many : Nat} (hle : few ≤ many)
    (g : Generator) : draw bound few g <+: draw bound many g := by
  induction few generalizing many g with
  | zero => exact List.nil_prefix
  | succ few ih =>
      obtain ⟨more, rfl⟩ := Nat.exists_eq_add_of_le' hle
      exact (List.prefix_cons_inj _).mpr (ih (Nat.le_add_left few more) _)

end Generator

namespace TopologyPlan

variable {α : Type}

/-- The plan with another count of fog nodes. -/
def withFogNodes (plan : TopologyPlan α) (count : Nat) : TopologyPlan α :=
  { plan with fogNodes := count }

theorem drawnFog_prefix (plan : TopologyPlan α) {few many : Nat}
    (hle : few ≤ many) :
    (plan.withFogNodes few).drawnFog <+: (plan.withFogNodes many).drawnFog :=
  (Generator.draw_prefix plan.fogCatalogue.length hle _).filterMap _

/-- The datacenters do not depend on the count of fog nodes. -/
theorem numbered_withFogNodes (plan : TopologyPlan α) (count : Nat)
    (devices : List (NodeKind × NodeSpec α)) :
    (plan.withFogNodes count).numbered devices = plan.numbered devices := rfl

theorem numbered_prefix (plan : TopologyPlan α)
    (front rest : List (NodeKind × NodeSpec α)) :
    ∃ added, plan.numbered (front ++ rest) = plan.numbered front ++ added ∧
      added.map Node.kind = rest.map Prod.fst := by
  refine ⟨_, List.mapIdx_append, ?_⟩
  apply List.ext_getElem?
  intro index
  simp only [List.getElem?_map, List.getElem?_mapIdx, Option.map_map]
  rfl

variable [Arith α]

theorem targets_prefix (plan : TopologyPlan α) {few many : Nat}
    (hle : few ≤ many) :
    ∃ more, (plan.withFogNodes many).targets =
        (plan.withFogNodes few).targets ++ more ∧
      ∀ device ∈ more, device.1 = NodeKind.fog := by
  obtain ⟨later, hlater⟩ := plan.drawnFog_prefix hle
  refine ⟨(later.filter NodeSpec.isSound).map (NodeKind.fog, ·), ?_, ?_⟩
  · unfold targets
    rw [← hlater, List.filter_append, List.map_append, List.append_assoc]
    rfl
  · intro device hdevice
    obtain ⟨spec, _, rfl⟩ := List.mem_map.mp hdevice
    rfl

end TopologyPlan

namespace Topology

variable {α : Type} [Arith α]

theorem candidates_of_ofPlan {plan : TopologyPlan α} {topology : Topology α}
    (hplan : ofPlan plan = .ok topology) :
    topology.candidates = plan.numbered plan.targets := by
  rw [(ofPlan_ok hplan).1]
  exact plan.candidates_ofPlanUnchecked

/-- The candidates for a count of fog nodes are the first candidates for a larger
count: the same nodes with the same numbers, hosts, kinds, datacenters and features,
in the same order.  Those behind them are fog nodes. -/
theorem candidates_nested (plan : TopologyPlan α) {few many : Nat}
    (hle : few ≤ many) {small large : Topology α}
    (hsmall : ofPlan (plan.withFogNodes few) = .ok small)
    (hlarge : ofPlan (plan.withFogNodes many) = .ok large) :
    small.candidates <+: large.candidates ∧
      ∀ node ∈ large.candidates.drop small.candidates.length,
        node.kind = .fog := by
  obtain ⟨more, htargets, hfog⟩ := plan.targets_prefix hle
  obtain ⟨added, hnumbered, hkinds⟩ :=
    plan.numbered_prefix (plan.withFogNodes few).targets more
  have hcandidates : large.candidates = small.candidates ++ added := by
    rw [candidates_of_ofPlan hsmall, candidates_of_ofPlan hlarge, htargets,
      plan.numbered_withFogNodes, plan.numbered_withFogNodes, hnumbered]
  rw [hcandidates, List.drop_left]
  refine ⟨List.prefix_append _ _, ?_⟩
  intro node hnode
  have hkind : node.kind ∈ more.map Prod.fst := by
    rw [← hkinds]
    exact List.mem_map_of_mem hnode
  obtain ⟨device, hdevice, hsame⟩ := List.mem_map.mp hkind
  rw [← hsame, hfog device hdevice]

/-- One cloud node, and a catalogue in which an entry has no speed. -/
def mixedPlan : TopologyPlan Binary64 where
  seed := "stripy zebra"
  cloudNodes := 1
  cloud := deviceAt Arith.one
  fogNodes := 0
  fogCatalogue := [deviceAt Arith.one, deviceAt Arith.zero,
    deviceAt (Arith.ofNat 2)]
  gateway := deviceAt Arith.one

theorem ofPlan_mixedPlan (count : Nat) : ∃ topology,
    ofPlan (mixedPlan.withFogNodes count) = .ok topology := by
  have hcloud : mixedPlan.cloud.isSound = true := by decide
  have hgateway : (mixedPlan.withFogNodes count).gateway.isSound = true := by
    change mixedPlan.gateway.isSound = true
    decide
  refine ⟨ofPlanUnchecked (mixedPlan.withFogNodes count), ?_⟩
  rw [ofPlan_eq, if_neg, if_neg, if_pos hgateway]
  · intro hnone
    have hunsound := TopologyPlan.targets_eq_nil.mp hnone mixedPlan.cloud
      (List.mem_append_left _ List.mem_cons_self)
    rw [hcloud] at hunsound
    cases hunsound
  · rintro ⟨hempty, _⟩
    cases hempty

theorem mixedPlan_nested : ∃ small large,
    ofPlan (mixedPlan.withFogNodes 3) = .ok small ∧
      ofPlan (mixedPlan.withFogNodes 8) = .ok large ∧ 3 ≤ 8 ∧
      small.candidates <+: large.candidates ∧
      ∀ node ∈ large.candidates.drop small.candidates.length,
        node.kind = .fog := by
  obtain ⟨small, hsmall⟩ := ofPlan_mixedPlan 3
  obtain ⟨large, hlarge⟩ := ofPlan_mixedPlan 8
  have hle : 3 ≤ 8 := by decide
  exact ⟨small, large, hsmall, hlarge, hle,
    candidates_nested mixedPlan hle hsmall hlarge⟩

end Topology
end FogDispatch
