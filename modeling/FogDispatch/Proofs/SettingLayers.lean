import FogDispatch.Settings.Layers
import Mathlib.Tactic

/-!
# Adding layers

All layers are read again whenever one is added.  As long as the files stay what
they are, the settings are those of the layers read so far, so that a layer that
can be added is written over what is there.
-/

namespace FogDispatch.Settings.Layered

variable {find : String → Option ByteArray}

/-- The settings are what their layers make, if the layers can be read. -/
def Sound (find : String → Option ByteArray) (settings : Layered) : Prop :=
  ∀ root, rebuild find settings.layers = .ok root → settings.root = root

theorem rebuild_append (layers : List Layer) (layer : Layer) :
    rebuild find (layers ++ [layer]) =
      (rebuild find layers).bind fun root => overlay find root layer := by
  unfold rebuild
  rw [List.foldlM_append]
  refine congrArg _ (funext fun root => ?_)
  rw [List.foldlM_cons]
  cases overlay find root layer <;> rfl

theorem overlay_eq_ok {root after : Value} {layer : Layer}
    (hoverlay : overlay find root layer = .ok after) :
    ∃ entries, layer.collect? find = some entries ∧
      applyLayer? root entries = some after := by
  unfold overlay at hoverlay
  split at hoverlay
  next => cases hoverlay
  next entries hcollect =>
    split at hoverlay
    next => cases hoverlay
    next changed happly =>
      obtain rfl := Except.ok.inj hoverlay
      exact ⟨entries, hcollect, happly⟩

theorem sound_empty : empty.Sound find := by
  intro root hroot
  exact Except.ok.inj hroot

theorem sound_add (settings : Layered) (layer : Layer) :
    (settings.add find layer).2.Sound find := by
  unfold Layered.add
  dsimp only
  cases hrebuild : rebuild find (settings.layers ++ [layer]) with
  | ok root =>
      intro other hother
      rw [hrebuild] at hother
      exact Except.ok.inj hother
  | error fault =>
      intro other hother
      rw [hrebuild] at hother
      cases hother

theorem sound_of_add {settings after : Layered} {layer : Layer}
    {outcome : Except Fault Unit}
    (hadd : settings.add find layer = (outcome, after)) : after.Sound find := by
  have hsound : (settings.add find layer).2.Sound find := sound_add settings layer
  rwa [hadd] at hsound

/-- A layer that can be added is written over the settings. -/
theorem Sound.overlay_of_add {settings after : Layered}
    (hsound : settings.Sound find) {layer : Layer}
    (hadd : settings.add find layer = (.ok (), after)) :
    ∃ entries, layer.collect? find = some entries ∧
      applyLayer? settings.root entries = some after.root := by
  unfold Layered.add at hadd
  dsimp only at hadd
  rw [rebuild_append] at hadd
  cases hrebuild : rebuild find settings.layers with
  | error fault => rw [hrebuild] at hadd; cases hadd
  | ok root =>
      rw [hrebuild, ← hsound root hrebuild] at hadd
      cases hoverlay : overlay find settings.root layer with
      | error fault =>
          rw [Except.bind, hoverlay] at hadd
          cases hadd
      | ok written =>
          rw [Except.bind, hoverlay] at hadd
          obtain ⟨_, rfl⟩ := Prod.mk.inj hadd
          exact overlay_eq_ok hoverlay

theorem Sound.apply_of_add_table {settings after : Layered}
    (hsound : settings.Sound find) {entries : Entries}
    (hadd : settings.add find (.table entries) = (.ok (), after)) :
    applyLayer? settings.root entries = some after.root := by
  obtain ⟨_, hentries, happly⟩ := hsound.overlay_of_add hadd
  obtain rfl := Option.some.inj hentries
  exact happly

/-- Settings that can be reached by adding layers, whether they could be read or
not. -/
inductive Built (find : String → Option ByteArray) : Layered → Prop
  | empty : Built find empty
  | add {settings : Layered} (hbuilt : Built find settings) (layer : Layer) :
      Built find (settings.add find layer).2

theorem Built.sound {settings : Layered} (hbuilt : Built find settings) :
    settings.Sound find := by
  cases hbuilt with
  | empty => exact sound_empty
  | add _ layer => exact sound_add _ layer

/-- A failed preset leaves no layer behind, and any other addition is one of a
layer. -/
theorem Built.addPreset {settings : Layered} (hbuilt : Built find settings)
    (name : String) : Built find (settings.addPreset find name).2 := by
  unfold Layered.addPreset
  split
  next => exact hbuilt.add _
  next => exact hbuilt

end FogDispatch.Settings.Layered
