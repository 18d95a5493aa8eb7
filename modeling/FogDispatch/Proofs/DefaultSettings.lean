import FogDispatch.Settings.Layers
import Mathlib.Tactic

/-!
# The default settings as values

The settings that the default document stands for, written out, with a test for the
equality of settings that can be carried out.
-/

namespace FogDispatch.Settings

namespace Value

mutual

/-- Whether two settings are the same. -/
def same : Value → Value → Bool
  | .nothing, .nothing => true
  | .flag a, .flag b => a == b
  | .whole a, .whole b => a == b
  | .real a, .real b => a == b
  | .text a, .text b => a == b
  | .list a, .list b => sameItems a b
  | .table a, .table b => sameEntries a b
  | _, _ => false

def sameItems : List Value → List Value → Bool
  | [], [] => true
  | a :: as, b :: bs => same a b && sameItems as bs
  | _, _ => false

def sameEntries : List (String × Value) → List (String × Value) → Bool
  | [], [] => true
  | (name, a) :: as, (other, b) :: bs => name == other && same a b && sameEntries as bs
  | _, _ => false

end

mutual

theorem eq_of_same : ∀ {a b : Value}, same a b = true → a = b
  | .nothing, .nothing, _ => rfl
  | .flag _, .flag _, hsame => congrArg flag (eq_of_beq hsame)
  | .whole _, .whole _, hsame => congrArg whole (eq_of_beq hsame)
  | .real _, .real _, hsame => congrArg real (eq_of_beq hsame)
  | .text _, .text _, hsame => congrArg text (eq_of_beq hsame)
  | .list _, .list _, hsame => congrArg list (eq_of_sameItems hsame)
  | .table _, .table _, hsame => congrArg table (eq_of_sameEntries hsame)

theorem eq_of_sameItems : ∀ {a b : List Value}, sameItems a b = true → a = b
  | [], [], _ => rfl
  | a :: as, b :: bs, hsame => by
      rw [sameItems, Bool.and_eq_true] at hsame
      rw [eq_of_same hsame.1, eq_of_sameItems hsame.2]

theorem eq_of_sameEntries :
    ∀ {a b : List (String × Value)}, sameEntries a b = true → a = b
  | [], [], _ => rfl
  | (name, a) :: as, (other, b) :: bs, hsame => by
      rw [sameEntries, Bool.and_eq_true, Bool.and_eq_true] at hsame
      rw [eq_of_beq hsame.1.1, eq_of_same hsame.1.2, eq_of_sameEntries hsame.2]

end

end Value

/-! ## The defaults -/

/-- The settings of a device by the bits of its numbers. -/
def features (mips ram storage busy idle : UInt64) : Value :=
  .table [("mips", .real ⟨mips⟩), ("ram", .real ⟨ram⟩), ("storage", .real ⟨storage⟩),
    ("busy_power", .real ⟨busy⟩), ("idle_power", .real ⟨idle⟩)]

def sweptStrategy (kind policy : String) : Value :=
  .table [("kind", .text kind), ("policy", .text policy)]

/-- What the default document says. -/
def defaultSettings : Entries :=
  [("output_dir", .text "results"), ("until", .text "no_events"),
    ("experiment", .table [("name", .text "fogsched"), ("strategy", .text "placement"),
      ("episodes", .whole 1), ("random_seeds", .list [.whole 42]),
      ("respect_job_constraints", .flag true)]),
    ("dataset", .table [("path", .text "datasets/tsp"),
      ("runtime_scale", .real ⟨4607182418800017408⟩)]),
    ("topology", .table [("seed", .text "stripy zebra"), ("cloud_nodes", .whole 0),
      ("fog_nodes", .whole 30),
      ("cloud", features 4684286771209437184 4674736413210574848 4683180662511894528
        4642014947167961088 4632515166703976448),
      ("fog_catalogue", .list [
        features 4681179551349342208 4661225614328463360 4683743612465315840
          4642824187726004224 4635921013922175386,
        features 4681179551349342208 4656722014701092864 4683743612465315840
          4642824187726004224 4635921013922175386,
        features 4664770439816413184 4661225614328463360 4683180662511894528
          4637933560005656576 4635752128936148992,
        features 4664770439816413184 4656722014701092864 4683180662511894528
          4637933560005656576 4635752128936148992]),
      ("gateway", features 4662571416560861184 4656722014701092864
        4679240012837945344 4638953906796232704 4636293968266317005)]),
    ("network", .table [("fog_latency", .real ⟨4587366580439587226⟩),
      ("fog_upload_bandwidth", .real ⟨4652007308841189376⟩),
      ("fog_download_bandwidth", .real ⟨4652007308841189376⟩),
      ("cloud_latency", .real ⟨4591870180066957722⟩),
      ("cloud_upload_bandwidth", .real ⟨4641240890982006784⟩),
      ("cloud_download_bandwidth", .real ⟨4641240890982006784⟩)]),
    ("gateway", .table [("real_mips", .real ⟨4666013987467427840⟩),
      ("charge_compute_time", .flag true)]),
    ("policy", .table [("address", .text "127.0.0.1:5000"),
      ("strategy", .text "TP_FIFO"), ("max_attempts", .whole 30),
      ("attempt_timeout_ms", .whole 30000), ("framing", .text "length_prefixed"),
      ("priorities_quantity", .whole 5)]),
    ("logging", .table [("span_events", .list []),
      ("filter", .table [("directives", .text "info"), ("from_env", .flag true)]),
      ("term", .table [("enabled", .flag true), ("name", .text "stderr")]),
      ("file", .table [("enabled", .flag false), ("directory", .text "logs"),
        ("name", .text "fogsched.log")])]),
    ("presets", .table [
      ("joint", .table [
        ("experiment", .table [("strategy", .text "scheduling_and_placement")]),
        ("policy", .table [("strategy", .text "TSP_DRL")])]),
      ("drl", .table [("policy", .table [("strategy", .text "TP_DRL"),
        ("drl", .table [("load_pretrained_model", .flag false),
          ("training", .flag true), ("save_final_model", .flag true)])])]),
      ("sweep", .table [("experiment", .table [
        ("fog_nodes", .list [.whole 10, .whole 20, .whole 30]),
        ("strategies", .list [sweptStrategy "placement" "TP_FIFO",
          sweptStrategy "placement" "TP_DRL",
          sweptStrategy "scheduling_and_placement" "TSP_FIFO",
          sweptStrategy "scheduling_and_placement" "TSP_DRL"])])]),
      ("cloud", .table [("topology", .table [("cloud_nodes", .whole 1)])])])]

namespace Toml

/-- The settings of the characters of a document. -/
def readChars? (cs : List Char) : Option Entries := do
  let cs := match cs with
    | '\ufeff' :: rest => rest
    | cs => cs
  let cs := foldLineEnds cs
  let (drafts, rest) ← readPairs? (cs.length + 1) [] cs
  let drafts ← readTables? (cs.length + 1) drafts rest
  return finishEntries drafts

theorem read?_eq (text : String) : read? text = readChars? text.toList := rfl

end Toml

theorem toList_defaultDocument :
    defaultDocument.toList = (defaultLines.map String.toList).flatMap (· ++ ['\n']) := by
  have hlines : ∀ lines : List (List Char), lines ≠ [] →
      ['\n'].intercalate lines ++ ['\n'] = lines.flatMap (· ++ ['\n']) := by
    intro lines hsome
    induction lines with
    | nil => exact absurd rfl hsome
    | cons line rest ih =>
        cases rest with
        | nil => simp
        | cons next rest =>
            rw [List.intercalate_cons_cons, List.append_assoc, ih (by simp)]
            simp
  have hend : "\n".toList = ['\n'] := rfl
  rw [defaultDocument, String.toList_append, String.toList_intercalate, hend]
  exact hlines _ (by simp [defaultLines])

/-- The default document is read as the default settings. -/
theorem defaults_eq : Layered.defaults = defaultSettings := by
  have hread : (Toml.readChars? ((defaultLines.map String.toList).flatMap
      (· ++ ['\n']))).elim false (Value.sameEntries defaultSettings) = true := by
    decide +kernel
  rw [Layered.defaults, Toml.read?_eq, toList_defaultDocument]
  cases hchars : Toml.readChars? ((defaultLines.map String.toList).flatMap
      (· ++ ['\n'])) with
  | none => rw [hchars] at hread; cases hread
  | some entries =>
      rw [hchars] at hread
      exact (Value.eq_of_sameEntries hread).symm

end FogDispatch.Settings
