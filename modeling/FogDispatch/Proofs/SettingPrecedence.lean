import FogDispatch.Proofs.DefaultSettings
import FogDispatch.Proofs.Outcomes
import FogDispatch.Proofs.PathTexts
import FogDispatch.Proofs.SettingDocuments
import FogDispatch.Proofs.SettingLayers

/-!
# Which layer a setting comes from

The settings of a run are written in four layers: the defaults, a file, a preset and
the environment.  If their names are plain and they agree on which places are
tables, a place shows what the highest layer shows there that shows something, and
a preset is what the file over the defaults shows below its name.
-/

namespace FogDispatch.Settings

open Layer (assigned PlainVariables)

/-! ## Writing plain names -/

def PlainNames (entries : Entries) : Prop := ∀ entry ∈ entries, PlainName entry.1

instance (entries : Entries) : Decidable (PlainNames entries) :=
  inferInstanceAs (Decidable (∀ entry ∈ entries, PlainName entry.1))

theorem writeEntry?_plain {name : String} (hname : PlainName name)
    (root value : Value) :
    writeEntry? root (name, value) = some (root.mergeKey name value) := by
  unfold writeEntry?
  rw [Path.read?_plain hname]
  rfl

theorem applyLayer?_plain {entries : Entries} (hnames : PlainNames entries)
    (root : Value) : applyLayer? root entries = some (root.mergeAll entries) := by
  unfold applyLayer?
  induction entries generalizing root with
  | nil => rw [Value.mergeAll]; rfl
  | cons entry rest ih =>
      obtain ⟨name, value⟩ := entry
      obtain ⟨hname, hrest⟩ := List.forall_mem_cons.mp hnames
      rw [List.foldlM_cons, writeEntry?_plain hname, Value.mergeAll_cons]
      exact ih hrest _

/-- A setting below some tables. -/
def nest : List String → Value → Value
  | [], value => value
  | key :: keys, value => .table [(key, nest keys value)]

theorem mergeAll_singleton (target : Value) (name : String) (value : Value) :
    target.mergeAll [(name, value)] = target.mergeKey name value := by
  rw [Value.mergeAll_cons, Value.mergeAll]

/-- What is missing on the way to a place is made as a table of its own. -/
theorem write?_keys (text key : String) (keys : List String) (target : Value) :
    Path.write? (.text text) (.key key :: keys.map .key) target =
      some (target.mergeKey key (nest keys (.text text))) := by
  induction keys generalizing key target with
  | nil => rfl
  | cons next keys ih =>
      have hentries : ((target.entries.get? key).getD .nothing).entries =
          ((target.entries.get? key).getD (.table [])).entries := by
        cases target.entries.get? key <;> rfl
      rw [List.map_cons, Path.write?, ih, Option.map_some, nest,
        Value.mergeKey_eq target, Value.writtenOver, mergeAll_singleton,
        Value.mergeKey_eq, hentries, ← Value.mergeKey_eq]
      exact List.cons_ne_nil _ _

/-! ## The environment -/

/-- Settings by the texts of their paths. -/
def spelledEntries (settings : List (List String × String)) : Entries :=
  settings.map fun setting => (Path.spelled setting.1, .text setting.2)

theorem names_spelledEntries (settings : List (List String × String)) :
    (spelledEntries settings).map Prod.fst =
      settings.map fun setting => Path.spelled setting.1 := by
  rw [spelledEntries, List.map_map]
  rfl

/-- One variable after the other is put behind the earlier ones, as its name is new. -/
theorem ofEnvironment_from {assignments : List (String × String)} {entries : Entries}
    (hnames : (entries.map Prod.fst ++
      (spelledEntries (assigned assignments)).map Prod.fst).Nodup) :
    assignments.foldl (fun (entries : Entries) (assignment : String × String) =>
        if Layer.counts assignment.1 then
          entries.put (Path.spelled (Layer.keysOf assignment.1)) (.text assignment.2)
        else entries) entries =
      entries ++ spelledEntries (assigned assignments) := by
  induction assignments generalizing entries with
  | nil => exact (List.append_nil entries).symm
  | cons assignment rest ih =>
      rw [List.foldl_cons]
      by_cases hcounts : Layer.counts assignment.1 = true
      · have hassigned : spelledEntries (assigned (assignment :: rest)) =
            (Path.spelled (Layer.keysOf assignment.1), .text assignment.2) ::
              spelledEntries (assigned rest) := by
          rw [assigned, List.filter_cons, if_pos hcounts]
          rfl
        rw [hassigned, List.map_cons] at hnames
        have hfresh : Path.spelled (Layer.keysOf assignment.1) ∉
            entries.map Prod.fst := fun hmem =>
          (List.nodup_append.mp hnames).2.2 _ hmem _ List.mem_cons_self rfl
        rw [if_pos hcounts, Association.put_fresh hfresh, hassigned, ih, List.append_assoc]
        · rfl
        · rwa [List.map_append, List.append_assoc]
      · have hassigned : assigned (assignment :: rest) = assigned rest := by
          rw [assigned, List.filter_cons, if_neg hcounts]
          rfl
        rw [hassigned] at hnames ⊢
        rw [if_neg hcounts]
        exact ih hnames

theorem ofEnvironment_eq {assignments : List (String × String)}
    (hplain : PlainVariables assignments) :
    Layer.ofEnvironment assignments = spelledEntries (assigned assignments) := by
  have hnames : (([] : Entries).map Prod.fst ++
      (spelledEntries (assigned assignments)).map Prod.fst).Nodup := by
    rw [names_spelledEntries]
    exact hplain.nodup_spelled
  rw [← List.nil_append (spelledEntries _), ← ofEnvironment_from hnames]
  unfold Layer.ofEnvironment
  simp only [Layer.spelled_keysOf, Layer.counts]

/-! ## Layers over one another -/

/-- Layers written over one another, the lowest first. -/
def written (root : Value) (layers : List Value) : Value :=
  layers.foldl (fun root layer => root.mergeAll layer.entries) root

theorem written_pair (root : Value) (lower upper : Entries) :
    written root [.table lower, .table upper] =
      (root.mergeAll lower).mergeAll upper := rfl

theorem written_append (root : Value) (layers more : List Value) :
    written root (layers ++ more) = written (written root layers) more :=
  List.foldl_append

theorem written_table (root : Value) (entries : Entries) (layers : List Value) :
    written root (.table entries :: layers) =
      written (root.mergeAll entries) layers := rfl

/-- What the highest of some layers that shows a place shows there. -/
def seen (layers : List Value) (keys : List String) : Option Face :=
  layers.reverse.findSome? (Value.face? keys)

theorem seen_cons (layer : Value) (rest : List Value) (keys : List String) :
    seen (layer :: rest) keys = (seen rest keys).or (layer.face? keys) := by
  rw [seen, List.reverse_cons, List.findSome?_append, seen]
  cases h : layer.face? keys <;> simp [h]

theorem seen_eq_none_iff {layers : List Value} {keys : List String} :
    seen layers keys = none ↔ ∀ layer ∈ layers, layer.at? keys = none := by
  simp [seen, List.findSome?_eq_none_iff, Value.face?]

/-- Tables of distinct names that agree on what is a table. -/
structure Layers (layers : List Value) : Prop where
  table : ∀ layer ∈ layers, layer.face = .table
  distinct : ∀ layer ∈ layers, layer.Distinct
  agree : ∀ layer ∈ layers, ∀ other ∈ layers, Value.Agree layer other

theorem agree_mergeAll {root layer other : Value} (hlayer : layer.face = .table)
    (hdistinct : layer.Distinct) (hroot : root.face = .table)
    (hrootLayer : Value.Agree root layer) (hrootOther : Value.Agree root other)
    (hlayerOther : Value.Agree layer other) :
    Value.Agree (root.mergeAll layer.entries) other := by
  rw [Value.face_eq_table_iff] at hlayer
  rw [hlayer] at hdistinct hrootLayer hlayerOther
  intro keys f hf
  rw [Value.face?_mergeAll hdistinct hroot hrootLayer, Option.mem_def,
    Option.or_eq_some_iff] at hf
  rcases hf with hupper | ⟨_, hlower⟩
  · exact hlayerOther keys f hupper
  · exact hrootOther keys f hlower

theorem face?_written {layers : List Value} (hlayers : Layers layers) {root : Value}
    (hroot : root.face = .table) (hagree : ∀ layer ∈ layers, Value.Agree root layer)
    (keys : List String) :
    (written root layers).face? keys = (seen layers keys).or (root.face? keys) := by
  induction layers generalizing root with
  | nil => rfl
  | cons layer rest ih =>
      obtain ⟨htable, htables⟩ := List.forall_mem_cons.mp hlayers.table
      obtain ⟨hdistinct, hdistincts⟩ := List.forall_mem_cons.mp hlayers.distinct
      obtain ⟨hlayer, hothers⟩ := List.forall_mem_cons.mp hagree
      have hrest : Layers rest := ⟨htables, hdistincts, fun a ha b hb =>
        hlayers.agree a (List.mem_cons_of_mem _ ha) b (List.mem_cons_of_mem _ hb)⟩
      have hnext : ∀ other ∈ rest,
          Value.Agree (root.mergeAll layer.entries) other := fun other hother =>
        agree_mergeAll htable hdistinct hroot hlayer (hothers other hother)
          (hlayers.agree layer List.mem_cons_self other
            (List.mem_cons_of_mem _ hother))
      have hwritten : written root (layer :: rest) =
          written (root.mergeAll layer.entries) rest := rfl
      rw [Value.face_eq_table_iff] at htable
      rw [htable] at hdistinct hlayer
      rw [hwritten, ih hrest (Value.face_mergeAll hroot _) hnext, seen_cons,
        Value.face?_mergeAll hdistinct hroot hlayer, Option.or_assoc, ← htable]

theorem distinct_written {layers : List Value}
    (hlayers : ∀ layer ∈ layers, layer.Distinct) {root : Value}
    (hroot : root.Distinct) : (written root layers).Distinct := by
  induction layers generalizing root with
  | nil => exact hroot
  | cons layer rest ih =>
      obtain ⟨hlayer, hrest⟩ := List.forall_mem_cons.mp hlayers
      exact ih hrest (Value.distinct_mergeAll hroot
        (Value.distinct_table hlayer.names fun _ => hlayer.of_mem))

/-! ## Layers of single settings -/

/-- The settings of variables, each as a layer of its own. -/
def nested (settings : List (List String × String)) : List Value :=
  settings.map fun setting => nest setting.1 (.text setting.2)

theorem nest_distinct (keys : List String) (text : String) :
    (nest keys (.text text)).Distinct := by
  induction keys with
  | nil => exact Value.distinct_leaf rfl rfl
  | cons key keys ih =>
      refine Value.distinct_table (List.nodup_singleton key) fun entry hentry => ?_
      obtain rfl := List.mem_singleton.mp hentry
      exact ih

theorem applyLayer?_spelled {settings : List (List String × String)}
    (hplain : ∀ setting ∈ settings, ∃ key keys, setting.1 = key :: keys ∧
      PlainName key ∧ ∀ other ∈ keys, PlainName other) (root : Value) :
    applyLayer? root (spelledEntries settings) =
      some (written root (nested settings)) := by
  unfold applyLayer?
  induction settings generalizing root with
  | nil => rfl
  | cons setting rest ih =>
      obtain ⟨⟨key, keys, hkeys, hkey, hothers⟩, hrest⟩ :=
        List.forall_mem_cons.mp hplain
      have hwrite : writeEntry? root (Path.spelled setting.1, .text setting.2) =
          some (root.mergeAll (nest setting.1 (.text setting.2)).entries) := by
        unfold writeEntry?
        rw [hkeys, Path.read?_spelled hkey hothers]
        exact (write?_keys setting.2 key keys root).trans
          (congrArg some (mergeAll_singleton root key _).symm)
      rw [spelledEntries, List.map_cons, List.foldlM_cons, hwrite]
      exact ih hrest _

/-! ## The layers of a run -/

/-- What is written over the defaults. -/
structure Stack where
  file : Entries
  preset : Entries
  environment : List (List String × String)

namespace Stack

/-- The settings of a file, if there is one. -/
def fileOf? (find : String → Option ByteArray) : Option String → Option Entries
  | some path => (Layer.file path).collect? find
  | none => some []

/-- Settings with a file over them, if there is one. -/
def overFile (find : String → Option ByteArray) (settings : Layered) :
    Option String → Layered
  | some path => (settings.addFile find path).2
  | none => settings

/-- The defaults with a file over them. -/
def base (find : String → Option ByteArray) (file : Option String) : Layered :=
  overFile find (Layered.empty.addDefaults find).2 file

/-- The settings of a preset, if there is one, as they are found below its name. -/
def presetOf? (settings : Layered) : Option String → Option Entries
  | some name =>
    match settings.get ("presets." ++ name) with
    | .ok (.table entries) => some (Entries.erase "presets" entries)
    | _ => none
  | none => some []

/-- The layers of a run.  The preset is found in the defaults and the file. -/
def of? (find : String → Option ByteArray) (file preset : Option String)
    (assignments : List (String × String)) : Option Stack := do
  let fileEntries ← fileOf? find file
  let presetEntries ← presetOf? (base find file) preset
  return ⟨fileEntries, presetEntries, assigned assignments⟩

/-- The layers below the preset, the lowest first. -/
def lower (stack : Stack) : List Value :=
  [.table Layered.defaults, .table stack.file]

/-- All layers, the lowest first. -/
def layers (stack : Stack) : List Value :=
  stack.lower ++ .table stack.preset :: nested stack.environment

/-- Names are plain, and the layers agree on which places are tables. -/
structure Regular (stack : Stack) (assignments : List (String × String)) : Prop where
  file : PlainNames stack.file
  preset : PlainNames stack.preset
  environment : PlainVariables assignments
  agree : ∀ layer ∈ stack.layers, ∀ other ∈ stack.layers, Value.Agree layer other

end Stack

namespace Layered

variable {find : String → Option ByteArray}

/-- The settings after an addition that succeeds. -/
def finished : Except Fault Unit × Layered → Except Fault Layered
  | (result, settings) => result.map fun _ => settings

theorem finished_ok {added : Except Fault Unit × Layered} {settings : Layered}
    (hfinished : finished added = .ok settings) : added = (.ok (), settings) := by
  obtain ⟨result, after⟩ := added
  cases result with
  | error fault => cases hfinished
  | ok _ =>
      obtain rfl := Except.ok.inj hfinished
      rfl

/-- Settings with a file over them, if there is one. -/
def withFile (find : String → Option ByteArray) (settings : Layered) :
    Option String → Except Fault Layered
  | some path => finished (settings.addFile find path)
  | none => .ok settings

/-- Settings with a preset over them, if there is one. -/
def withPreset (find : String → Option ByteArray) (settings : Layered) :
    Option String → Except Fault Layered
  | some name => finished (settings.addPreset find name)
  | none => .ok settings

/-- The stages of a run after the defaults. -/
def runFrom (find : String → Option ByteArray) (file preset : Option String)
    (assignments : List (String × String)) (added : Except Fault Unit × Layered) :
    Except Fault Layered :=
  (finished added).bind fun settings =>
    (withFile find settings file).bind fun settings =>
    (withPreset find settings preset).bind fun settings =>
    finished (settings.addEnvironment find assignments)

theorem forRun_eq (file preset : Option String) (assignments : List (String × String)) :
    forRun find file preset assignments =
      runFrom find file preset assignments (empty.addDefaults find) := by
  unfold forRun runFrom
  generalize empty.addDefaults find = added
  obtain ⟨result, settings⟩ := added
  cases result with
  | error fault => rfl
  | ok _ => cases file <;> cases preset <;> rfl

theorem addPreset_ok {settings after : Layered} {name : String}
    (hadd : settings.addPreset find name = (.ok (), after)) :
    ∃ entries, Stack.presetOf? settings (some name) = some entries ∧
      settings.add find (.table entries) = (.ok (), after) := by
  unfold addPreset at hadd
  split at hadd
  next entries hget =>
    refine ⟨Entries.erase "presets" entries, ?_, hadd⟩
    rw [Stack.presetOf?, hget]
  next => cases (Prod.mk.inj hadd).1

theorem Sound.of_withFile {settings after : Layered} (hsound : settings.Sound find)
    {file : Option String} (hfile : withFile find settings file = .ok after) :
    ∃ entries, Stack.fileOf? find file = some entries ∧
      Stack.overFile find settings file = after ∧ after.Sound find ∧
      applyLayer? settings.root entries = some after.root := by
  cases file with
  | none =>
      obtain rfl := Except.ok.inj hfile
      exact ⟨[], rfl, rfl, hsound, rfl⟩
  | some path =>
      have hadd := finished_ok hfile
      obtain ⟨entries, hcollect, happly⟩ := hsound.overlay_of_add hadd
      exact ⟨entries, hcollect, congrArg Prod.snd hadd, sound_of_add hadd, happly⟩

theorem Sound.of_withPreset {settings after : Layered} (hsound : settings.Sound find)
    {preset : Option String} (hpreset : withPreset find settings preset = .ok after) :
    ∃ entries, Stack.presetOf? settings preset = some entries ∧
      after.Sound find ∧ applyLayer? settings.root entries = some after.root := by
  cases preset with
  | none =>
      obtain rfl := Except.ok.inj hpreset
      exact ⟨[], rfl, hsound, rfl⟩
  | some name =>
      obtain ⟨entries, hpresetOf, hadd⟩ := addPreset_ok (finished_ok hpreset)
      exact ⟨entries, hpresetOf, sound_of_add hadd, hsound.apply_of_add_table hadd⟩

/-- What each layer of a run is written over. -/
theorem forRun_stages {file preset : Option String}
    {assignments : List (String × String)} {settings : Layered}
    (hrun : forRun find file preset assignments = .ok settings) :
    ∃ stack, Stack.of? find file preset assignments = some stack ∧
      ∃ start after,
        applyLayer? (.table []) defaults = some start ∧
        applyLayer? start stack.file = some (Stack.base find file).root ∧
        applyLayer? (Stack.base find file).root stack.preset = some after ∧
        applyLayer? after (Layer.ofEnvironment assignments) =
          some settings.root := by
  rw [forRun_eq] at hrun
  obtain ⟨first, hfirst, hrun⟩ := bind_ok hrun
  obtain ⟨second, hsecond, hrun⟩ := bind_ok hrun
  obtain ⟨third, hthird, hlast⟩ := bind_ok hrun
  replace hfirst := finished_ok hfirst
  have hbase : Stack.base find file = Stack.overFile find first file := by
    rw [Stack.base, hfirst]
  rw [addDefaults] at hfirst
  have hdefaults := sound_empty.apply_of_add_table hfirst
  obtain ⟨fileEntries, hcollect, hfile, hsecondSound, hfileApply⟩ :=
    (sound_of_add hfirst).of_withFile hsecond
  rw [← hbase] at hfile
  subst hfile
  obtain ⟨presetEntries, hpresetOf, hthirdSound, hpresetApply⟩ :=
    hsecondSound.of_withPreset hthird
  obtain ⟨_, hentries, henvironment⟩ :=
    hthirdSound.overlay_of_add (finished_ok hlast)
  obtain rfl := Option.some.inj hentries
  refine ⟨⟨fileEntries, presetEntries, assigned assignments⟩, ?_, first.root,
    third.root, hdefaults, hfileApply, hpresetApply, henvironment⟩
  unfold Stack.of?
  rw [hcollect, hpresetOf]
  rfl

end Layered

/-! ## Regular layers -/

theorem Path.distinct_get? {root value : Value} (hroot : root.Distinct) {path : Path}
    (hget : path.get? root = some value) : value.Distinct := by
  have hstep : ∀ {target child : Value} {step : Step}, target.Distinct →
      stepTo? target step = some child → child.Distinct := by
    intro target child step htarget hchild
    cases step with
    | key name =>
        cases target with
        | table entries => exact htarget.of_get? hchild
        | _ => cases hchild
    | index place =>
        cases target with
        | list items =>
            obtain ⟨position, _, hitem⟩ := Option.bind_eq_some_iff.mp hchild
            cases htarget with
            | intro _ _ hitems => exact hitems child (List.mem_of_getElem? hitem)
        | _ => cases hchild
  unfold Path.get? at hget
  generalize Step.key path.root :: path.steps = steps at hget
  induction steps generalizing root with
  | nil =>
      obtain rfl := Option.some.inj hget
      exact hroot
  | cons step steps ih =>
      rw [List.foldlM_cons] at hget
      obtain ⟨child, hchild, hget⟩ := Option.bind_eq_some_iff.mp hget
      exact ih (hstep hroot hchild) hget

namespace Stack

variable {find : String → Option ByteArray}

theorem distinct_defaults : (Value.table Layered.defaults).Distinct := by
  unfold Layered.defaults
  cases hread : Toml.read? defaultDocument with
  | none => exact Value.distinct_empty
  | some entries => exact Toml.distinct_read? hread

theorem plain_defaults : PlainNames Layered.defaults := by
  rw [defaults_eq]
  decide

theorem distinct_fileOf? {file : Option String} {entries : Entries}
    (hfile : fileOf? find file = some entries) : (Value.table entries).Distinct := by
  cases file with
  | none =>
      obtain rfl := Option.some.inj hfile
      exact Value.distinct_empty
  | some path =>
      obtain ⟨content, _, hfile⟩ := Option.bind_eq_some_iff.mp hfile
      obtain ⟨text, _, hread⟩ := Option.bind_eq_some_iff.mp hfile
      exact Toml.distinct_read? hread

theorem distinct_erase {name : String} {entries : Entries}
    (hentries : (Value.table entries).Distinct) :
    (Value.table (Entries.erase name entries)).Distinct :=
  Value.distinct_table
    (hentries.names.sublist (List.filter_sublist.map Prod.fst))
    fun _ hentry => hentries.of_mem (List.mem_of_mem_filter hentry)

theorem distinct_presetOf? {settings : Layered} (hsettings : settings.root.Distinct)
    {preset : Option String} {entries : Entries}
    (hpreset : presetOf? settings preset = some entries) :
    (Value.table entries).Distinct := by
  cases preset with
  | none =>
      obtain rfl := Option.some.inj hpreset
      exact Value.distinct_empty
  | some name =>
      rw [presetOf?] at hpreset
      split at hpreset
      next found hget =>
        obtain rfl := Option.some.inj hpreset
        unfold Layered.get at hget
        split at hget
        next value hvalue =>
          obtain ⟨path, _, hpath⟩ := Option.bind_eq_some_iff.mp hvalue
          obtain rfl := Except.ok.inj hget
          exact distinct_erase (Path.distinct_get? hsettings hpath)
        next => cases hget
      next => cases hpreset

/-- The layers that are written in the order they are listed in. -/
theorem roots_of_regular {stack : Stack} {assignments : List (String × String)}
    (hregular : stack.Regular assignments)
    (henvironment : stack.environment = assigned assignments)
    {start base after root : Value}
    (hdefaults : applyLayer? (.table []) Layered.defaults = some start)
    (hfile : applyLayer? start stack.file = some base)
    (hpreset : applyLayer? base stack.preset = some after)
    (hvariables : applyLayer? after (Layer.ofEnvironment assignments) = some root) :
    base = written (.table []) stack.lower ∧ root = written (.table []) stack.layers := by
  have hplain := hregular.environment.plain_keys
  rw [ofEnvironment_eq hregular.environment, applyLayer?_spelled hplain] at hvariables
  rw [applyLayer?_plain plain_defaults] at hdefaults
  rw [applyLayer?_plain hregular.file] at hfile
  rw [applyLayer?_plain hregular.preset] at hpreset
  have hbase : base = written (.table []) stack.lower := by
    rw [← Option.some.inj hfile, ← Option.some.inj hdefaults, lower, written_pair]
  refine ⟨hbase, ?_⟩
  rw [← Option.some.inj hvariables, ← Option.some.inj hpreset, hbase, layers,
    henvironment, written_append, written_table]

theorem lower_layers {stack : Stack}
    (hfile : (Value.table stack.file).Distinct)
    (hagree : ∀ layer ∈ stack.layers, ∀ other ∈ stack.layers,
      Value.Agree layer other) : Layers stack.lower where
  table := by simp [lower]
  distinct := by simpa [lower] using ⟨distinct_defaults, hfile⟩
  agree := fun layer hlayer other hother =>
    hagree layer (List.mem_append_left _ hlayer) other (List.mem_append_left _ hother)

theorem all_layers {stack : Stack} {assignments : List (String × String)}
    (hregular : stack.Regular assignments)
    (henvironment : stack.environment = assigned assignments)
    (hfile : (Value.table stack.file).Distinct)
    (hpreset : (Value.table stack.preset).Distinct) : Layers stack.layers where
  table := by
    refine List.forall_mem_append.mpr ⟨by simp [lower],
      List.forall_mem_cons.mpr ⟨rfl, List.forall_mem_map.mpr fun setting hsetting => ?_⟩⟩
    rw [henvironment] at hsetting
    obtain ⟨key, keys, hkeys, _⟩ := hregular.environment.plain_keys setting hsetting
    rw [hkeys]
    rfl
  distinct := List.forall_mem_append.mpr ⟨by
      simpa [lower] using ⟨distinct_defaults, hfile⟩,
    List.forall_mem_cons.mpr ⟨hpreset, List.forall_mem_map.mpr fun setting _ =>
      nest_distinct setting.1 setting.2⟩⟩
  agree := hregular.agree

end Stack

theorem face?_written_empty {layers : List Value} (hlayers : Layers layers)
    (key : String) (keys : List String) :
    (written (.table []) layers).face? (key :: keys) = seen layers (key :: keys) := by
  have hagree : ∀ layer ∈ layers, Value.Agree (.table []) layer := by
    intro layer hlayer
    rw [layer.face_eq_table_iff.mp (hlayers.table layer hlayer)]
    exact Value.agree_empty _
  rw [face?_written hlayers rfl hagree]
  exact Option.or_none

namespace Layered

/-- A preset shows what stands below its name, apart from presets. -/
theorem face?_presetOf {settings : Layered} {name : String} {names : List String}
    (hname : PlainName name) (hnames : ∀ other ∈ names, PlainName other)
    {entries : Entries}
    (hpreset : Stack.presetOf? settings (some (Path.spelled (name :: names))) =
      some entries) (key : String) (keys : List String) :
    (Value.table entries).face? (key :: keys) =
      if key = "presets" then none
      else settings.root.face? ("presets" :: name :: names ++ key :: keys) := by
  have hplace : "presets." ++ Path.spelled (name :: names) =
      Path.spelled ("presets" :: name :: names) := by
    simp [Path.spelled]
  rw [Stack.presetOf?, hplace, get_spelled settings (by decide)
    (List.forall_mem_cons.mpr ⟨hname, hnames⟩)] at hpreset
  rw [Value.face?_append]
  cases hat : settings.root.at? ("presets" :: name :: names) with
  | none => rw [hat] at hpreset; cases hpreset
  | some value =>
      rw [hat, Option.elim_some] at hpreset
      cases value with
      | table found =>
          obtain rfl := Option.some.inj hpreset
          rw [Option.bind_some, Value.face?_cons, Value.face?_cons, Value.entries,
            Value.entries, Entries.get?_erase]
          by_cases hkey : key = "presets"
          · rw [if_pos hkey.symm, if_pos hkey, Option.bind_none]
          · rw [if_neg (Ne.symm hkey), if_neg hkey]
      | _ => cases hpreset

end Layered

/-! ## A run with all four layers -/

def layeredText : String := String.intercalate "\n" [
  "until = \"all_done\"",
  "[policy]",
  "strategy = \"TP_DRL\"",
  "max_attempts = 7",
  "[presets.joint.policy]",
  "framing = \"newline\"",
  ""]

def layeredFiles (path : String) : Option ByteArray :=
  if path = "run.toml" then some layeredText.toUTF8 else none

def layeredVariables : List (String × String) :=
  [("PATH", "/bin"), ("Fogsched_policy__MAX_ATTEMPTS", "9")]

/-- The layers of the run over the defaults. -/
def layeredStack : Stack where
  file := [("until", .text "all_done"),
    ("policy", .table [("strategy", .text "TP_DRL"), ("max_attempts", .whole 7)]),
    ("presets", .table [("joint", .table [("policy", .table [
      ("framing", .text "newline")])])])]
  preset := [("experiment", .table [("strategy", .text "scheduling_and_placement")]),
    ("policy", .table [("strategy", .text "TSP_DRL"), ("framing", .text "newline")])]
  environment := [(["policy", "max_attempts"], "9")]

theorem eq_some_of_same {found : Option Entries} {entries : Entries}
    (hsame : found.elim false (Value.sameEntries entries) = true) :
    found = some entries := by
  cases found with
  | none => cases hsame
  | some other => exact congrArg some (Value.eq_of_sameEntries hsame).symm

theorem layeredStack_of? :
    Stack.of? layeredFiles (some "run.toml") (some "joint") layeredVariables =
      some layeredStack := by
  have hfile : Stack.fileOf? layeredFiles (some "run.toml") =
      some layeredStack.file := by
    apply eq_some_of_same
    decide +kernel
  have hpreset : Stack.presetOf? (Stack.base layeredFiles (some "run.toml"))
      (some "joint") = some layeredStack.preset := by
    apply eq_some_of_same
    rw [Stack.base, Layered.addDefaults, defaults_eq]
    decide +kernel
  rw [Stack.of?, hfile, hpreset]
  have hvariables : assigned layeredVariables = layeredStack.environment := by
    decide +kernel
  exact congrArg some (congrArg (Stack.mk _ _) hvariables)

theorem layeredStack_regular : layeredStack.Regular layeredVariables where
  file := by decide
  preset := by decide
  environment := by
    have hchars : layeredVariables.all
        (fun assignment => assignment.1.toList.all Path.isNameChar) = true := by
      decide +kernel
    refine ⟨fun assignment hassignment _ => ?_, by decide +kernel, by decide +kernel⟩
    exact List.all_eq_true.mp (List.all_eq_true.mp hchars assignment hassignment)
  agree := by
    have hagreeing : ∀ layer ∈ layeredStack.layers, ∀ other ∈ layeredStack.layers,
        Value.agreeing layer other = true := by
      rw [Stack.layers, Stack.lower, defaults_eq]
      decide +kernel
    exact fun layer hlayer other hother =>
      Value.agree_of_agreeing (hagreeing layer hlayer other hother)

end FogDispatch.Settings
