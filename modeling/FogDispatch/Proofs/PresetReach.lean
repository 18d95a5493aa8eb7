import FogDispatch.Proofs.PathTexts
import FogDispatch.Proofs.DefaultSettings
import FogDispatch.Proofs.SettingLayers

/-!
# What a preset can reach

A named setting is written under one top level name, which is the first name of the
path it spells.  A layer changes the settings under a name exactly as its settings
that spell a path from there do.  So a preset, whose own entry `presets` is left
out, leaves the presets alone unless it holds a name that spells a path into them.
-/

namespace FogDispatch.Settings

/-! ## One top level name -/

/-- The top level name under which a named setting is written. -/
def Path.rootOf (name : String) : String :=
  match Path.read? name with
  | some path => path.root
  | none => name

/-- The steps from there. -/
def Path.stepsOf (name : String) : List Step :=
  match Path.read? name with
  | some path => path.steps
  | none => []

/-- A setting written at some steps below what is there. -/
def Path.writeBelow? (value : Value) (steps : List Step) (child : Option Value) :
    Option Value :=
  match steps with
  | [] => some (Value.writtenOver child value)
  | steps => Path.write? value steps (child.getD .nothing)

theorem Path.write?_key (value : Value) (name : String) (steps : List Step)
    (target : Value) :
    Path.write? value (.key name :: steps) target =
      (Path.writeBelow? value steps (target.entries.get? name)).map fun inner =>
        .table (target.entries.put name inner) := by
  cases steps with
  | nil => exact congrArg some (Value.mergeKey_eq target name value)
  | cons step steps => rfl

theorem writeEntry?_eq (root : Value) (name : String) (value : Value) :
    writeEntry? root (name, value) =
      (Path.writeBelow? value (Path.stepsOf name)
        (root.entries.get? (Path.rootOf name))).map fun inner =>
          .table (root.entries.put (Path.rootOf name) inner) := by
  unfold writeEntry? Path.rootOf Path.stepsOf
  cases Path.read? name with
  | none => exact congrArg some (Value.mergeKey_eq root name value)
  | some path => exact Path.write?_key value path.root path.steps root

/-- What stands under a top level name. -/
def Value.under (root : Value) (name : String) : Option Value :=
  root.entries.get? name

theorem under_of_writeEntry? {root after : Value} {name key : String} {value : Value}
    (hwrite : writeEntry? root (name, value) = some after)
    (hroot : Path.rootOf name ≠ key) : after.under key = root.under key := by
  rw [writeEntry?_eq] at hwrite
  obtain ⟨inner, _, rfl⟩ := Option.map_eq_some_iff.mp hwrite
  rw [Value.under, Value.entries, Association.get?_put, if_neg hroot, Value.under]

theorem writeEntry?_congr {root other after : Value} {name : String} {value : Value}
    (hunder : root.under (Path.rootOf name) = other.under (Path.rootOf name))
    (hwrite : writeEntry? root (name, value) = some after) :
    ∃ after', writeEntry? other (name, value) = some after' ∧
      after.under (Path.rootOf name) = after'.under (Path.rootOf name) := by
  rw [writeEntry?_eq] at hwrite ⊢
  obtain ⟨inner, hinner, rfl⟩ := Option.map_eq_some_iff.mp hwrite
  rw [Value.under, Value.under] at hunder
  rw [← hunder, hinner]
  refine ⟨_, rfl, ?_⟩
  rw [Value.under, Value.under, Value.entries, Value.entries, Association.get?_put,
    Association.get?_put, if_pos rfl, if_pos rfl]

/-- The settings of a layer that are written under a top level name. -/
def Entries.reaching (key : String) (entries : Entries) : Entries :=
  entries.filter fun entry => Path.rootOf entry.1 == key

/-- Under a name a layer does what its settings that reach the name do. -/
theorem applyLayer?_reaching {key : String} {entries : Entries}
    {root other after : Value} (hunder : root.under key = other.under key)
    (happly : applyLayer? root entries = some after) :
    ∃ after', applyLayer? other (entries.reaching key) = some after' ∧
      after.under key = after'.under key := by
  unfold applyLayer? at happly ⊢
  induction entries generalizing root other with
  | nil =>
      obtain rfl := Option.some.inj happly
      exact ⟨other, rfl, hunder⟩
  | cons entry rest ih =>
      obtain ⟨name, value⟩ := entry
      rw [List.foldlM_cons] at happly
      obtain ⟨next, hnext, happly⟩ := Option.bind_eq_some_iff.mp happly
      rw [Entries.reaching, List.filter_cons]
      by_cases hroot : Path.rootOf name = key
      · subst hroot
        obtain ⟨next', hnext', hsame⟩ := writeEntry?_congr hunder hnext
        obtain ⟨after', hafter, hresult⟩ := ih hsame happly
        rw [if_pos (beq_self_eq_true _), List.foldlM_cons, hnext']
        exact ⟨after', hafter, hresult⟩
      · have hkept := under_of_writeEntry? hnext hroot
        rw [if_neg (by simpa using hroot)]
        exact ih (hkept.trans hunder) happly

namespace Layered

variable {find : String → Option ByteArray}

/-- What a preset that can be added makes of the presets, which are left as they
were if none of its names but `presets` itself spells a path into them. -/
theorem presets_of_addPreset {settings after : Layered} {name : String}
    (hbuilt : Built find settings)
    (hadd : settings.addPreset find name = (.ok (), after)) :
    ∃ entries, settings.get ("presets." ++ name) = .ok (.table entries) ∧
      (∃ reached, applyLayer? settings.root
          ((Entries.erase "presets" entries).reaching "presets") = some reached ∧
        after.root.under "presets" = reached.under "presets") ∧
      ((∀ entry ∈ entries, entry.1 ≠ "presets" →
          Path.rootOf entry.1 ≠ "presets") →
        after.root.under "presets" = settings.root.under "presets") := by
  unfold addPreset at hadd
  split at hadd
  next entries hget =>
    have happly := hbuilt.sound.apply_of_add_table hadd
    obtain ⟨reached, hreached, hsame⟩ := applyLayer?_reaching rfl happly
    refine ⟨entries, hget, ⟨reached, hreached, hsame⟩, fun hclear => ?_⟩
    have hnone : (Entries.erase "presets" entries).reaching "presets" = [] := by
      rw [Entries.reaching, List.filter_eq_nil_iff]
      intro entry hentry
      obtain ⟨hmem, hname⟩ := List.mem_filter.mp hentry
      simpa using hclear entry hmem (by simpa using hname)
    rw [hnone] at hreached
    rw [hsame, ← Option.some.inj hreached]
  next => cases (Prod.mk.inj hadd).1

/-! ## A preset that spells a path into another one -/

def reachingText : String := String.intercalate "\n" [
  "[presets.evil]",
  "\"presets.joint.policy.strategy\" = \"other\"",
  ""]

def reachingFiles (path : String) : Option ByteArray :=
  if path = "c.toml" then some reachingText.toUTF8 else none

/-- Some settings with the file over them. -/
def underFile (entries : Entries) : Layered :=
  ((empty.add reachingFiles (.table entries)).2.addFile reachingFiles "c.toml").2

theorem built_underFile (entries : Entries) :
    Built reachingFiles (underFile entries) :=
  (Built.empty.add _).add _

/-- Whether a place reads as a given setting. -/
def reads (settings : Layered) (place : String) (value : Value) : Bool :=
  match settings.get place with
  | .ok found => found.same value
  | .error _ => false

theorem get_of_reads {settings : Layered} {place : String} {value : Value}
    (hreads : settings.reads place value = true) :
    settings.get place = .ok value := by
  unfold reads at hreads
  cases hget : settings.get place with
  | error fault => rw [hget] at hreads; cases hreads
  | ok found =>
      rw [hget] at hreads
      rw [Value.eq_of_same hreads]

theorem exists_of_isOk {added : Except Fault Unit × Layered}
    (hok : added.1.isOk = true) : ∃ after, added = (.ok (), after) := by
  obtain ⟨result, after⟩ := added
  cases result with
  | error fault => cases hok
  | ok _ => exact ⟨after, rfl⟩

def jointPreset : Entries :=
  [("experiment", .table [("strategy", .text "scheduling_and_placement")]),
    ("policy", .table [("strategy", .text "TSP_DRL")])]

/-- The preset `joint` of the defaults leaves the presets alone. -/
theorem joint_keeps_presets : ∃ after : Layered,
    Built reachingFiles (underFile defaults) ∧
    (underFile defaults).addPreset reachingFiles "joint" = (.ok (), after) ∧
    after.root.under "presets" = (underFile defaults).root.under "presets" := by
  have hbuilt := built_underFile defaults
  have hpreset : (underFile defaults).get ("presets." ++ "joint") =
      .ok (.table jointPreset) := by
    apply get_of_reads
    rw [defaults_eq]
    decide +kernel
  have hadded : ((underFile defaults).addPreset reachingFiles "joint").1.isOk = true := by
    rw [defaults_eq]
    decide +kernel
  obtain ⟨after, hadd⟩ := exists_of_isOk hadded
  obtain ⟨entries, hget, _, hkept⟩ := presets_of_addPreset hbuilt hadd
  rw [hpreset] at hget
  obtain rfl : jointPreset = entries := Value.table.inj (Except.ok.inj hget)
  exact ⟨after, hbuilt, hadd, hkept (by decide)⟩

/-- A quoted name that spells a path changes another preset. -/
theorem evil_changes_presets : ∃ after : Layered,
    Built reachingFiles (underFile defaults) ∧
    (underFile defaults).addPreset reachingFiles "evil" = (.ok (), after) ∧
    (underFile defaults).get
        (Path.spelled ["presets", "joint", "policy", "strategy"]) =
      .ok (.text "TSP_DRL") ∧
    after.get (Path.spelled ["presets", "joint", "policy", "strategy"]) =
      .ok (.text "other") ∧
    after.root.under "presets" ≠ (underFile defaults).root.under "presets" := by
  have hbefore : (underFile defaults).get
      (Path.spelled ["presets", "joint", "policy", "strategy"]) =
        .ok (.text "TSP_DRL") := by
    apply get_of_reads
    rw [defaults_eq]
    decide +kernel
  have hadded : ((underFile defaults).addPreset reachingFiles "evil").1.isOk = true ∧
      ((underFile defaults).addPreset reachingFiles "evil").2.reads
        (Path.spelled ["presets", "joint", "policy", "strategy"])
        (.text "other") = true := by
    rw [defaults_eq]
    decide +kernel
  obtain ⟨after, hadd⟩ := exists_of_isOk hadded.1
  rw [hadd] at hadded
  have hafter := get_of_reads hadded.2
  refine ⟨after, built_underFile defaults, hadd, hbefore, hafter, fun hsame => ?_⟩
  rw [get_spelled _ (by decide) (by decide), Value.at?_cons] at hbefore hafter
  rw [Value.under, Value.under] at hsame
  rw [hsame, hbefore] at hafter
  exact absurd (Value.text.inj (Except.ok.inj hafter)) (by decide)

end Layered
end FogDispatch.Settings
