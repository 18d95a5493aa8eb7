import FogDispatch.Proofs.Keeping
import FogDispatch.Report

/-!
# The journal of an experiment

A journal lists the requests to the decision service and the files that are
written, in the order of time.  What a file holds in the end, and which episodes
the service has let go by, can be read off the journal alone.
-/

namespace FogDispatch

inductive Entry where
  /-- A request, and whether it was answered. -/
  | asked (request : Request Binary64) (answered : Bool)
  | wrote (path content : String)
  deriving DecidableEq

/-- The announcement in force, the last episode whose model was saved, and both
of them at every request to move on that was answered. -/
structure Told where
  setup : Option (Setup Binary64)
  episode : Option Nat
  finished : List (Option (Setup Binary64) × Option Nat)

namespace Told

def hear (told : Told) : Entry → Told
  | .asked (.setup data) _ => { told with setup := some data }
  | .asked (.saveModel number) _ => { told with episode := some number }
  | .asked .nextEpisode true =>
    { told with finished := told.finished ++ [(told.setup, told.episode)] }
  | _ => told

def of (journal : List Entry) : Told := journal.foldl hear ⟨none, none, []⟩

@[simp] theorem of_append (journal more : List Entry) :
    of (journal ++ more) = more.foldl hear (of journal) :=
  List.foldl_append

end Told

namespace Entry

def overwrites (path : String) (content : Option String) : Entry → Option String
  | .wrote other text => if other = path then some text else content
  | .asked _ _ => content

/-- What was written to a file last. -/
def content? (path : String) (journal : List Entry) : Option String :=
  journal.foldl (overwrites path) none

@[simp] theorem content?_append (path : String) (journal more : List Entry) :
    content? path (journal ++ more) =
      more.foldl (overwrites path) (content? path journal) :=
  List.foldl_append

/-- Entries that leave a file alone and let no episode go by. -/
structure Elsewhere (path : String) (more : List Entry) : Prop where
  told (told : Told) : more.foldl Told.hear told = told
  content (content : Option String) :
    more.foldl (overwrites path) content = content

namespace Elsewhere

theorem nil (path : String) : Elsewhere path [] :=
  ⟨fun _ => rfl, fun _ => rfl⟩

theorem append {path : String} {first more : List Entry}
    (hfirst : Elsewhere path first) (hmore : Elsewhere path more) :
    Elsewhere path (first ++ more) where
  told told := by rw [List.foldl_append, hfirst.told, hmore.told]
  content content := by rw [List.foldl_append, hfirst.content, hmore.content]

theorem wrote {path other content : String} {more : List Entry}
    (hmore : Elsewhere path more) (hother : other ≠ path) :
    Elsewhere path (.wrote other content :: more) where
  told := hmore.told
  content before := by
    rw [List.foldl_cons, overwrites, if_neg hother, hmore.content]

theorem asked {path : String} {request : Request Binary64}
    (hdecisions : request.OnDecisions) (answered : Bool) :
    Elsewhere path [.asked request answered] := by
  cases request with
  | askDecision number state => exact ⟨fun _ => rfl, fun _ => rfl⟩
  | saveReward number reward => exact ⟨fun _ => rfl, fun _ => rfl⟩
  | retrain number state => exact ⟨fun _ => rfl, fun _ => rfl⟩
  | setup data => exact hdecisions.elim
  | saveModel episode => exact hdecisions.elim
  | nextEpisode => exact hdecisions.elim

end Elsewhere
end Entry

variable {σ β : Type}

/-- The policy under record. -/
def Policy.journaled (policy : Policy (StateM σ) Binary64) :
    Policy (StateM (List Entry × σ)) Binary64 where
  ask request := do
    let (journal, memory) ← get
    let (answer, left) := (policy.ask request).run memory
    set (journal ++ [Entry.asked request answer.isOk], left)
    return answer

/-- A program beside the journal. -/
def aside (program : StateM σ β) : StateM (List Entry × σ) β := do
  let (journal, memory) ← get
  let (value, left) := program.run memory
  set (journal, left)
  return value

/-- The surroundings under record, where every file can be written. -/
def Host.journaled (host : Host (StateM σ)) :
    Host (StateM (List Entry × σ)) where
  read path := aside (host.read path)
  createDirectory path := do
    let _ ← aside (host.createDirectory path)
    return true
  write path content := do
    let _ ← aside (host.write path content)
    modify fun (journal, memory) => (journal ++ [.wrote path content], memory)
    return true
  nanoseconds := aside host.nanoseconds

/-! ## Files of a report -/

theorem Location.eq_of_join {directory name other : String}
    (hname : name.startsWith "/" = false)
    (hother : other.startsWith "/" = false)
    (hsame : join directory name = join directory other) : name = other := by
  unfold join at hsame
  rw [hname, hother] at hsame
  simp only [Bool.false_eq_true, if_false] at hsame
  have hchars := congrArg String.toList hsame
  apply String.toList_inj.mp
  split at hchars <;> simpa using hchars

namespace Report

variable {host : Host (StateM σ)} {directory : String}

theorem run_writeInto (host : Host (StateM σ)) (directory name content : String)
    (journal : List Entry) (memory : σ) :
    ∃ left, (writeInto host.journaled directory name content).run
        (journal, memory) =
      (.ok (),
        (journal ++ [.wrote (Location.join directory name) content], left)) :=
  ⟨_, rfl⟩

/-- What the histories of an episode are about. -/
def kinds : List String := ["completion_time", "reward", "gateway_energy"]

theorem exists_kind {info : RunInfo} {metrics : EpisodeMetrics Binary64}
    {item : String × List Binary64} (hitem : item ∈ series info metrics) :
    ∃ what ∈ kinds, item.1 = seriesName what info.seed metrics.episode := by
  have hname : item.1 ∈ (series info metrics).map Prod.fst :=
    List.mem_map_of_mem hitem
  have hnames : (series info metrics).map Prod.fst =
      kinds.map (seriesName · info.seed metrics.episode) := rfl
  rw [hnames, List.mem_map] at hname
  obtain ⟨what, hwhat, hsame⟩ := hname
  exact ⟨what, hwhat, hsame.symm⟩

theorem toList_seriesName (what : String) (seed episode : Nat) :
    (seriesName what seed episode).toList = what.toList ++
      ("_seed".toList ++ (Nat.toDigits 10 seed ++
        ("_ep".toList ++ (Nat.toDigits 10 episode ++ ".csv".toList)))) := by
  simp [seriesName]
  rfl

theorem seriesName_relative {what : String} (hwhat : what ∈ kinds)
    (seed episode : Nat) :
    (seriesName what seed episode).startsWith "/" = false := by
  rw [String.startsWith_string_eq_false_iff, toList_seriesName]
  simp only [kinds, List.mem_cons, List.not_mem_nil, or_false] at hwhat
  rcases hwhat with rfl | rfl | rfl <;> simp

theorem seriesName_ne_tableName {what : String} (hwhat : what ∈ kinds)
    (seed episode : Nat) : seriesName what seed episode ≠ tableName := by
  intro hsame
  have hchars := congrArg String.toList hsame
  rw [toList_seriesName] at hchars
  simp only [kinds, List.mem_cons, List.not_mem_nil, or_false] at hwhat
  rcases hwhat with rfl | rfl | rfl <;> simp [tableName] at hchars

/-- The histories of an episode are not written over the table. -/
theorem join_series_ne (directory : String) (info : RunInfo)
    (metrics : EpisodeMetrics Binary64) :
    ∀ item ∈ series info metrics,
      Location.join directory item.1 ≠ Location.join directory tableName := by
  intro item hitem hsame
  obtain ⟨what, hwhat, hname⟩ := exists_kind hitem
  have htable : tableName.startsWith "/" = false := by
    rw [String.startsWith_string_eq_false_iff]
    decide
  rw [hname] at hsame
  exact seriesName_ne_tableName hwhat info.seed metrics.episode
    (Location.eq_of_join (seriesName_relative hwhat info.seed metrics.episode)
      htable hsame)

/-- The entries for histories that are written one after the other. -/
def entries (directory : String) (items : List (String × List Binary64)) :
    List Entry :=
  items.map fun item =>
    .wrote (Location.join directory item.1) (seriesText item.2)

theorem elsewhere_entries {path : String}
    {items : List (String × List Binary64)}
    (hother : ∀ item ∈ items, Location.join directory item.1 ≠ path) :
    Entry.Elsewhere path (entries directory items) := by
  induction items with
  | nil => exact .nil path
  | cons item rest ih =>
      obtain ⟨hitem, hrest⟩ := List.forall_mem_cons.mp hother
      exact (ih hrest).wrote hitem

theorem run_writeAllSeries (host : Host (StateM σ)) (directory : String)
    (items : List (String × List Binary64)) (journal : List Entry)
    (memory : σ) :
    ∃ left, (writeAllSeries host.journaled directory items).run
        (journal, memory) =
      (.ok (), (journal ++ entries directory items, left)) := by
  induction items generalizing journal memory with
  | nil => exact ⟨memory, by rw [entries, List.map_nil, List.append_nil]; rfl⟩
  | cons item rest ih =>
      obtain ⟨middle, hwrite⟩ := run_writeInto host directory item.1
        (seriesText item.2) journal memory
      obtain ⟨left, hrest⟩ := ih (journal ++ [.wrote
        (Location.join directory item.1) (seriesText item.2)]) middle
      refine ⟨left, (run_bind_eq hwrite).trans (hrest.trans ?_)⟩
      rw [List.append_assoc]
      rfl

theorem run_create (host : Host (StateM σ)) (directory : String)
    (journal : List Entry) (memory : σ) :
    ∃ left, (create host.journaled directory).run (journal, memory) =
      (.ok ⟨directory, []⟩,
        (journal ++ [.wrote (Location.join directory tableName)
          (tableText [])], left)) :=
  ⟨_, rfl⟩

/-- The table is written first, and then the histories. -/
theorem run_record_eq (host : Host (StateM σ)) (report : Report)
    (info : RunInfo) (metrics : EpisodeMetrics Binary64)
    (unplaced nanoseconds : Nat) (journal : List Entry) (memory : σ) :
    let rows := report.rows ++
      [EpisodeRow.ofEpisode info metrics unplaced nanoseconds]
    ∃ left,
      (report.record host.journaled info metrics unplaced nanoseconds).run
          (journal, memory) =
        (.ok ⟨report.directory, rows⟩,
          (journal ++ .wrote (Location.join report.directory tableName)
            (tableText rows) :: entries report.directory
              (series info metrics), left)) := by
  intro rows
  obtain ⟨middle, hwrite⟩ := run_writeInto host report.directory tableName
    (tableText rows) journal memory
  obtain ⟨left, hseries⟩ := run_writeAllSeries host report.directory
    (series info metrics) (journal ++ [.wrote
      (Location.join report.directory tableName) (tableText rows)]) middle
  refine ⟨left, (run_bind_eq hwrite).trans ((run_bind_eq hseries).trans ?_)⟩
  rw [List.append_assoc]
  rfl

theorem run_record (host : Host (StateM σ)) (report : Report)
    (info : RunInfo) (metrics : EpisodeMetrics Binary64)
    (unplaced nanoseconds : Nat) (journal : List Entry) (memory : σ) :
    let row := EpisodeRow.ofEpisode info metrics unplaced nanoseconds
    let path := Location.join report.directory tableName
    ∃ more left,
      (report.record host.journaled info metrics unplaced nanoseconds).run
          (journal, memory) =
        (.ok ⟨report.directory, report.rows ++ [row]⟩,
          (journal ++ .wrote path (tableText (report.rows ++ [row])) :: more,
            left)) ∧
      Entry.Elsewhere path more := by
  intro row path
  obtain ⟨left, hrecord⟩ := run_record_eq host report info metrics unplaced
    nanoseconds journal memory
  exact ⟨_, left, hrecord,
    elsewhere_entries (join_series_ne report.directory info metrics)⟩

end Report
end FogDispatch
