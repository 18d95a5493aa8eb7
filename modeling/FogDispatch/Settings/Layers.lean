import FogDispatch.Location
import FogDispatch.Settings.Defaults
import FogDispatch.Settings.Reading
import FogDispatch.Settings.Toml
import FogDispatch.Text.Lowercase

/-!
# Layers of settings

Settings come in layers: the defaults, a file, a preset and the environment, of which a later one is
written over the earlier ones.  Whenever a layer is added all layers are read again in order.  If
one of them can not be read, the settings stay what they were, but the layer counts.
-/

namespace FogDispatch.Settings

/-- A source of settings. -/
inductive Layer where
  | table (entries : Entries)
  | file (path : String)
  | environment (assignments : List (String × String))

namespace Layer

/-- The beginning of the names of variables that count, in lower case. -/
def environmentMark : List Char := "fogsched_".toList

/-- A text with every pair of underscores as a point. -/
def pointed : List Char → List Char
  | '_' :: '_' :: rest => '.' :: pointed rest
  | c :: rest => c :: pointed rest
  | [] => []

/-- The settings of variables: names count in any case, and their values are texts. -/
def ofEnvironment (assignments : List (String × String)) : Entries :=
  assignments.foldl (fun entries (name, value) =>
    if environmentMark.isPrefixOf (Text.lowercase name.toList) then
      let key := Text.lowercase (pointed (name.toList.drop environmentMark.length))
      entries.put (String.ofList key) (.text value)
    else entries) []

/-- The content of a settings file.  A path that names no file is tried with the extension of
settings files, and only files with that extension are read. -/
def locate? (find : String → Option ByteArray) (path : String) : Option ByteArray :=
  match find path with
  | some content => if Location.extension? path = some "toml" then some content else none
  | none => (Location.withExtension? path "toml").bind find

/-- The settings of a layer, given the files that are there. -/
def collect? (find : String → Option ByteArray) : Layer → Option Entries
  | .table entries => some entries
  | .file path => do
    let content ← locate? find path
    let text ← String.fromUTF8? content
    Toml.read? text
  | .environment assignments => some (ofEnvironment assignments)

end Layer

/-- Writes a named setting.  A name that spells a path is written to its place. -/
def writeEntry? (root : Value) (entry : String × Value) : Option Value :=
  match Path.read? entry.1 with
  | some path => path.set? entry.2 root
  | none => some (root.mergeKey entry.1 entry.2)

/-- Writes the settings of a layer over what is there. -/
def applyLayer? (root : Value) (entries : Entries) : Option Value :=
  entries.foldlM writeEntry? root

/-- Layers and the settings that they make. -/
structure Layered where
  layers : List Layer
  root : Value

namespace Layered

def empty : Layered := ⟨[], .table []⟩

/-- Reads a layer and writes it over what is there. -/
def overlay (find : String → Option ByteArray) (root : Value) (layer : Layer) :
    Except Fault Value :=
  match layer.collect? find with
  | none => .error .badSettings
  | some entries =>
    match applyLayer? root entries with
    | none => .error .outOfList
    | some root => .ok root

def rebuild (find : String → Option ByteArray) (layers : List Layer) : Except Fault Value :=
  layers.foldlM (overlay find) (.table [])

def add (settings : Layered) (find : String → Option ByteArray) (layer : Layer) :
    Except Fault Unit × Layered :=
  let layers := settings.layers ++ [layer]
  match rebuild find layers with
  | .ok root => (.ok (), ⟨layers, root⟩)
  | .error fault => (.error fault, { settings with layers := layers })

def defaults : Entries := (Toml.read? defaultDocument).getD []

def addDefaults (settings : Layered) (find : String → Option ByteArray) :
    Except Fault Unit × Layered :=
  settings.add find (.table defaults)

def addFile (settings : Layered) (find : String → Option ByteArray) (path : String) :
    Except Fault Unit × Layered :=
  settings.add find (.file path)

/-- The setting of a path that is given as text. -/
def get (settings : Layered) (path : String) : Except Fault Value :=
  match (Path.read? path).bind (·.get? settings.root) with
  | some value => .ok value
  | none => .error .badSettings

/-- Adds the preset of a name: its table is written over the settings, without what it says about
presets. -/
def addPreset (settings : Layered) (find : String → Option ByteArray) (name : String) :
    Except Fault Unit × Layered :=
  match settings.get ("presets." ++ name) with
  | .ok (.table entries) => settings.add find (.table (Entries.erase "presets" entries))
  | _ => (.error .badSettings, settings)

def addEnvironment (settings : Layered) (find : String → Option ByteArray)
    (assignments : List (String × String)) : Except Fault Unit × Layered :=
  settings.add find (.environment assignments)

def plan (settings : Layered) : Except Fault (Plan Binary64) := settings.root.toPlan

/-- The settings of a run: the defaults, an optional file, an optional preset, and the
environment. -/
def forRun (find : String → Option ByteArray) (file preset : Option String)
    (assignments : List (String × String)) : Except Fault Layered := do
  let finish : Except Fault Unit × Layered → Except Fault Layered
    | (result, settings) => result.map fun _ => settings
  let settings ← finish (empty.addDefaults find)
  let settings ← match file with
    | some path => finish (settings.addFile find path)
    | none => pure settings
  let settings ← match preset with
    | some name => finish (settings.addPreset find name)
    | none => pure settings
  finish (settings.addEnvironment find assignments)

end Layered
end FogDispatch.Settings
