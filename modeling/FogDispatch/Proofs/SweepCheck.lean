import FogDispatch.FileTree
import FogDispatch.Overview
import FogDispatch.Proofs.Chronicle
import FogDispatch.Proofs.Layout
import FogDispatch.Proofs.Outcomes
import FogDispatch.Proofs.Paths

/-!
# What an overview of a sweep says about a run

An overview looks at the setups of a sweep without those that have the directory
and the count of fog nodes of an earlier one.  Nothing else that a sweep varies
has a part in loading, so a setup that is left out loads exactly if the earlier
one does, with the same jobs, tasks and devices.  An overview is there exactly
if every setup of the run can be loaded, and otherwise it fails where the run
would fail first.
-/

namespace FogDispatch

variable {σ : Type}

/-! ## Loading a setup -/

/-- The tables of datasets stay the same as long as the memory has a property,
which reading them keeps, and a table is found by the parts of its path. -/
def Host.Serves (host : Host (StateM σ)) (Holds : σ → Prop)
    (files : List PathPart → Option ByteArray) : Prop :=
  ∀ directory (table : DatasetTable) memory, Holds memory →
    ∃ after, (host.read (Location.join directory table.fileName)).run memory =
        (files (Location.parts (Location.join directory table.fileName)),
          after) ∧
      Holds after

/-- What is found of a table of a directory. -/
def DatasetTable.content (files : List PathPart → Option ByteArray)
    (directory : String) (table : DatasetTable) : Option ByteArray :=
  files (Location.parts (Location.join directory table.fileName))

/-- The dataset and the topology of a setup. -/
def Plan.loads (files : List PathPart → Option ByteArray)
    (setup : Plan Binary64) :
    Except Fault (Dataset Binary64 × Topology Binary64) := do
  let dataset ← Dataset.ofContents setup.dataset
    (DatasetTable.content files setup.dataset.path .jobs)
    (DatasetTable.content files setup.dataset.path .tasks)
  let topology ← (Topology.ofPlan setup.topology).mapError Fault.topology
  return (dataset, topology)

def Plan.overview (files : List PathPart → Option ByteArray)
    (setup : Plan Binary64) : Except Fault (Overview Binary64) :=
  (setup.loads files).map fun loaded => Overview.of loaded.1 loaded.2

/-- Where the tables are there, a run of a setup breaks off as loading does, or
goes on to the seeds with what was loaded. -/
def Experiment.GoesBy (host : Host (StateM σ)) (Holds : σ → Prop)
    (setup : Plan Binary64)
    (loaded : Except Fault (Dataset Binary64 × Topology Binary64)) : Prop :=
  ∀ (policy : Policy (StateM σ) Binary64) (allotted : Nat)
    (results : List SeedResult) (report : Report) (memory : σ), Holds memory →
    ∃ after, Holds after ∧ match loaded with
      | .error fault =>
        (runSetup host policy allotted setup results report).run memory =
          (.error fault, after)
      | .ok (dataset, topology) =>
        ∃ gateway, topology.gateway? = some gateway ∧
          (runSetup host policy allotted setup results report).run memory =
            (runSeeds host policy allotted setup dataset topology gateway.mips
              setup.experiment.seeds results report).run after

section

variable {host : Host (StateM σ)} {Holds : σ → Prop}
  {files : List PathPart → Option ByteArray} (hserves : host.Serves Holds files)
  {memory : σ} (hmemory : Holds memory)

include hserves hmemory

theorem Dataset.run_load (source : DatasetPlan Binary64) :
    ∃ after, (load host source).run memory =
        (ofContents source (DatasetTable.content files source.path .jobs)
          (DatasetTable.content files source.path .tasks), after) ∧
      Holds after := by
  obtain ⟨middle, hjobs, hmiddle⟩ := hserves source.path .jobs memory hmemory
  obtain ⟨after, htasks, hafter⟩ := hserves source.path .tasks middle hmiddle
  refine ⟨after, ?_, hafter⟩
  unfold load
  rw [run_bind_eq hjobs, run_bind_eq htasks]
  rfl

theorem Overview.run_ofPlan (setup : Plan Binary64) :
    ∃ after, (ofPlan host setup).run memory = (setup.overview files, after) ∧
      Holds after := by
  obtain ⟨after, hload, hafter⟩ :=
    Dataset.run_load hserves hmemory setup.dataset
  refine ⟨after, ?_, hafter⟩
  unfold ofPlan Plan.overview Plan.loads
  rw [run_bind_eq hload]
  cases Dataset.ofContents setup.dataset
      (DatasetTable.content files setup.dataset.path .jobs)
      (DatasetTable.content files setup.dataset.path .tasks) with
  | error fault => rfl
  | ok dataset => cases Topology.ofPlan setup.topology <;> rfl

theorem Overview.run_ofPlans (setups : List (Plan Binary64)) :
    ∃ after, (ofPlans host setups).run memory =
        (setups.mapM (Plan.overview files), after) ∧
      Holds after := by
  induction setups generalizing memory with
  | nil => exact ⟨memory, rfl, hmemory⟩
  | cons setup rest ih =>
      obtain ⟨middle, hfirst, hmiddle⟩ := run_ofPlan hserves hmemory setup
      obtain ⟨after, hrest, hafter⟩ := ih hmiddle
      unfold ofPlans
      rw [run_bind_eq hfirst, List.mapM_cons]
      cases setup.overview files with
      | error fault => exact ⟨middle, rfl, hmiddle⟩
      | ok overview =>
          refine ⟨after, ?_, hafter⟩
          dsimp only
          rw [run_bind_eq hrest]
          cases rest.mapM (Plan.overview files) <;> rfl

omit hmemory in
theorem Experiment.goesBy_loads (setup : Plan Binary64) :
    GoesBy host Holds setup (setup.loads files) := by
  intro policy allotted results report memory hmemory
  obtain ⟨after, hload, hafter⟩ :=
    Dataset.run_load hserves hmemory setup.dataset
  refine ⟨after, hafter, ?_⟩
  unfold runSetup Plan.loads
  rw [run_bind_eq hload]
  cases Dataset.ofContents setup.dataset
      (DatasetTable.content files setup.dataset.path .jobs)
      (DatasetTable.content files setup.dataset.path .tasks) with
  | error fault => rfl
  | ok dataset =>
      cases htopology : Topology.ofPlan setup.topology with
      | error fault => rfl
      | ok topology =>
          obtain ⟨gateway, hgateway⟩ :=
            Topology.exists_gateway_of_ofPlan htopology
          exact ⟨gateway, hgateway, by simp only [hgateway]⟩

end

/-! ## What loading depends on -/

theorem Dataset.readTable_at {path : String} (other : String)
    {table : DatasetTable} {content : Option ByteArray} {rows : List Row}
    (hread : readTable path table content = .ok rows) :
    readTable other table content = .ok rows := by
  cases content with
  | none => cases hread
  | some bytes => exact hread

/-- Below another path the same tables make up the same dataset by another
name. -/
theorem Dataset.ofContents_at {path : String} (other : String)
    {scale : Binary64} {jobs tasks : Option ByteArray}
    {dataset : Dataset Binary64}
    (hload : ofContents ⟨path, scale⟩ jobs tasks = .ok dataset) :
    ofContents ⟨other, scale⟩ jobs tasks =
      .ok ⟨Location.displayName other, dataset.jobs, dataset.tasks⟩ := by
  unfold ofContents at hload ⊢
  obtain ⟨jobRows, hjobs, hload⟩ := bind_ok hload
  obtain ⟨taskRows, htasks, hload⟩ := bind_ok hload
  rw [readTable_at other hjobs, readTable_at other htasks]
  dsimp only [bind, Except.bind] at hload ⊢
  split at hload
  next => cases hload; rfl
  next => cases hload

theorem DatasetTable.content_of_parts {files : List PathPart → Option ByteArray}
    {path other : String} (hparts : Location.parts path = Location.parts other)
    (table : DatasetTable) :
    content files path table = content files other table := by
  have hjoin : ∀ directory, Location.parts
      (Location.join directory table.fileName) =
        Location.parts directory ++ [.name table.fileName] := by
    intro directory
    apply Location.parts_join <;> cases table <;> decide
  rw [content, content, hjoin, hjoin, hparts]

namespace Plan

variable {plan setup other : Plan Binary64}
  {files : List PathPart → Option ByteArray}

theorem distinct_sublist (seen : List (List PathPart × Nat))
    (setups : List (Plan Binary64)) : (distinct seen setups).Sublist setups := by
  induction setups generalizing seen with
  | nil => exact List.Sublist.slnil
  | cons setup rest ih =>
      unfold distinct
      split
      next => exact (ih seen).cons setup
      next => exact (ih _).cons_cons setup

/-- The keys of the setups that are looked at are those that were not seen
before, each where it occurs first. -/
theorem distinct_keys (seen : List (List PathPart × Nat))
    (setups : List (Plan Binary64)) :
    (distinct seen setups).map loadKey =
      ((setups.map loadKey).filter (!seen.contains ·)).eraseDups := by
  induction setups generalizing seen with
  | nil => rfl
  | cons setup rest ih =>
      unfold distinct
      rw [List.map_cons]
      split
      next hseen => rw [ih, List.filter_cons_of_neg (by simpa using hseen)]
      next hseen =>
        rw [List.map_cons, ih, List.filter_cons_of_pos (by simpa using hseen),
          List.eraseDups_cons, List.filter_filter]
        refine congrArg (setup.loadKey :: List.eraseDups ·) ?_
        refine List.filter_congr fun key _ => ?_
        simp [Bool.not_or, beq_eq_decide]

/-- In front of a setup that is looked at, all keys are those of setups that were
looked at before or of setups seen before. -/
theorem distinct_split {seen : List (List PathPart × Nat)}
    {setups earlier later : List (Plan Binary64)}
    (hsplit : distinct seen setups = earlier ++ setup :: later) :
    ∃ before behind, setups = before ++ setup :: behind ∧
      ∀ other ∈ before, other.loadKey ∈ seen ∨
        ∃ one ∈ earlier, one.loadKey = other.loadKey := by
  induction setups generalizing seen earlier with
  | nil => simp [distinct] at hsplit
  | cons first rest ih =>
      unfold distinct at hsplit
      split at hsplit
      next hseen =>
        obtain ⟨before, behind, rfl, hbefore⟩ := ih hsplit
        refine ⟨first :: before, behind, rfl, ?_⟩
        exact List.forall_mem_cons.mpr ⟨Or.inl (by simpa using hseen), hbefore⟩
      next =>
        cases earlier with
        | nil =>
            obtain ⟨rfl, -⟩ := List.cons.inj hsplit
            exact ⟨[], rest, rfl, List.forall_mem_nil _⟩
        | cons one earlier =>
            obtain ⟨rfl, hrest⟩ := List.cons.inj hsplit
            obtain ⟨before, behind, rfl, hbefore⟩ := ih hrest
            refine ⟨first :: before, behind, rfl, ?_⟩
            refine List.forall_mem_cons.mpr
              ⟨Or.inr ⟨first, List.mem_cons_self, rfl⟩, ?_⟩
            intro other hother
            rcases hbefore other hother with hseen | ⟨same, hsame, hkey⟩
            · rcases List.mem_cons.mp hseen with hfirst | hseen
              · exact Or.inr ⟨first, List.mem_cons_self, hfirst.symm⟩
              · exact Or.inl hseen
            · exact Or.inr ⟨same, List.mem_cons_of_mem _ hsame, hkey⟩

/-- Setups of a sweep differ in their point alone. -/
theorem eq_of_mem_setups (hsetup : setup ∈ plan.setups) :
    setup.dataset = ⟨setup.dataset.path, plan.dataset.runtimeScale⟩ ∧
      setup.topology =
        { plan.topology with fogNodes := setup.topology.fogNodes } := by
  simp only [setups, List.mem_flatMap, List.mem_map] at hsetup
  obtain ⟨path, _, fogNodes, _, pair, _, rfl⟩ := hsetup
  exact ⟨rfl, rfl⟩

/-- Of a point, the directory and the count of fog nodes alone have a part in
loading. -/
theorem loads_of_loadKey (hsetup : setup ∈ plan.setups)
    (hother : other ∈ plan.setups) (hkey : setup.loadKey = other.loadKey)
    {dataset : Dataset Binary64} {topology : Topology Binary64}
    (hloads : setup.loads files = .ok (dataset, topology)) :
    other.loads files = .ok (⟨Location.displayName other.dataset.path,
      dataset.jobs, dataset.tasks⟩, topology) := by
  obtain ⟨hparts, hfog⟩ := Prod.mk.inj hkey
  obtain ⟨hdataset, htopology⟩ := eq_of_mem_setups hsetup
  obtain ⟨hdataset', htopology'⟩ := eq_of_mem_setups hother
  have hsame : other.topology = setup.topology := by
    rw [htopology, htopology', hfog]
  unfold loads at hloads ⊢
  obtain ⟨_, hcontents, hloads⟩ := bind_ok hloads
  obtain ⟨_, hplan, hloads⟩ := bind_ok hloads
  cases hloads
  rw [hdataset] at hcontents
  rw [hdataset', hsame, ← DatasetTable.content_of_parts hparts,
    ← DatasetTable.content_of_parts hparts,
    Dataset.ofContents_at other.dataset.path hcontents]
  dsimp only [bind, Except.bind]
  rw [hplan]
  rfl

theorem overview_ok {overview : Overview Binary64}
    (hoverview : setup.overview files = .ok overview) :
    ∃ dataset topology, setup.loads files = .ok (dataset, topology) ∧
      overview = Overview.of dataset topology := by
  unfold Plan.overview at hoverview
  cases hloads : setup.loads files with
  | error fault => rw [hloads] at hoverview; cases hoverview
  | ok loaded =>
      rw [hloads] at hoverview
      exact ⟨loaded.1, loaded.2, rfl, (Except.ok.inj hoverview).symm⟩

theorem overview_error {fault : Fault}
    (hoverview : setup.overview files = .error fault) :
    setup.loads files = .error fault := by
  unfold Plan.overview at hoverview
  cases hloads : setup.loads files with
  | error broken =>
      rw [hloads] at hoverview
      cases hoverview
      rfl
  | ok loaded => rw [hloads] at hoverview; cases hoverview

end Plan

/-! ## Overviews of a sweep -/

namespace Overview

variable {plan : Plan Binary64} {files : List PathPart → Option ByteArray}

/-- An overview that fails tells the fault of the first setup that can not be
loaded. -/
theorem first_fault {fault : Fault}
    (hfault : (Plan.distinct [] plan.setups).mapM (Plan.overview files) =
      .error fault) :
    ∃ earlier setup later, plan.setups = earlier ++ setup :: later ∧
      (∀ other ∈ earlier, (other.loads files).isOk = true) ∧
      setup.loads files = .error fault := by
  obtain ⟨looked, setup, more, hdistinct, hlooked, hoverview⟩ :=
    mapM_eq_error hfault
  obtain ⟨earlier, later, hsplit, hearlier⟩ := Plan.distinct_split hdistinct
  refine ⟨earlier, setup, later, hsplit, ?_, Plan.overview_error hoverview⟩
  intro other hother
  obtain ⟨one, hone, hkey⟩ := (hearlier other hother).resolve_left (by simp)
  obtain ⟨overview, hshown⟩ := hlooked one hone
  obtain ⟨dataset, topology, hloads, _⟩ := Plan.overview_ok hshown
  have hinside : one ∈ plan.setups := by
    apply (Plan.distinct_sublist [] plan.setups).subset
    rw [hdistinct]
    exact List.mem_append_left _ hone
  have hinside' : other ∈ plan.setups := by
    rw [hsplit]
    exact List.mem_append_left _ hother
  rw [Plan.loads_of_loadKey hinside hinside' hkey hloads]
  rfl

/-- The numbers of an overview are those of a dataset and a topology. -/
structure Counts (overview : Overview Binary64) (dataset : Dataset Binary64)
    (topology : Topology Binary64) : Prop where
  jobs : overview.jobs = dataset.jobs.length
  tasks : overview.tasks = dataset.tasks.length
  cloudNodes : overview.cloudNodes = (topology.featuresOf .cloud).length
  fogNodes : overview.fogNodes = (topology.featuresOf .fog).length
  fogMips : overview.fogMips = (topology.featuresOf .fog).map (·.mips)

/-- A setup is shown by the overview of its key. -/
theorem shown_at_key {overviews : List (Overview Binary64)}
    (hok : (Plan.distinct [] plan.setups).mapM (Plan.overview files) =
      .ok overviews) {setup : Plan Binary64} (hsetup : setup ∈ plan.setups) :
    ∃ (index : Nat) (overview : Overview Binary64)
      (dataset : Dataset Binary64) (topology : Topology Binary64),
      ((Plan.distinct [] plan.setups).map Plan.loadKey)[index]? =
        some setup.loadKey ∧
      overviews[index]? = some overview ∧
      setup.loads files = .ok (dataset, topology) ∧
      overview.Counts dataset topology := by
  have hkey : setup.loadKey ∈
      (Plan.distinct [] plan.setups).map Plan.loadKey := by
    rw [Plan.distinct_keys, List.mem_eraseDups]
    simpa using ⟨setup, hsetup, rfl⟩
  obtain ⟨index, hindex⟩ := List.mem_iff_getElem?.mp hkey
  obtain ⟨one, hone, hsame⟩ :=
    Option.map_eq_some_iff.mp ((List.getElem?_map ..).symm.trans hindex)
  obtain ⟨hlooked, rfl⟩ := List.getElem?_eq_some_iff.mp hone
  have hall := mapM_eq_ok_iff.mp hok
  have hindex' : index < overviews.length := hall.length_eq ▸ hlooked
  obtain ⟨dataset, topology, hloads, hoverview⟩ :=
    Plan.overview_ok (hall.get hlooked hindex')
  have hinside := (Plan.distinct_sublist [] plan.setups).subset
    (List.getElem_mem hlooked)
  refine ⟨index, _, _, topology, hindex, List.getElem?_eq_getElem hindex',
    Plan.loads_of_loadKey hinside hsetup hsame hloads, ?_⟩
  rw [List.get_eq_getElem] at hoverview
  rw [hoverview]
  exact ⟨rfl, rfl, rfl, rfl, rfl⟩

/-- The overviews of a sweep, as long as the datasets stay the same.  A run loads
every setup by itself.  The overviews are there exactly if each of them can be
loaded: one for each key, where the key occurs first, with the numbers of every
setup that has the key.  Otherwise the fault is that of the first setup that
can not be loaded. -/
theorem sweep_check {host : Host (StateM σ)} {Holds : σ → Prop}
    (hserves : host.Serves Holds files) (plan : Plan Binary64) {memory : σ}
    (hmemory : Holds memory) :
    ∃ checked after, (ofSweep host plan).run memory = (checked, after) ∧
      Holds after ∧
      (∀ setup ∈ plan.setups,
        Experiment.GoesBy host Holds setup (setup.loads files)) ∧
      (checked.isOk = true ↔
        ∀ setup ∈ plan.setups, (setup.loads files).isOk = true) ∧
      (∀ overviews, checked = .ok overviews →
        overviews.length =
          (plan.setups.map Plan.loadKey).eraseDups.length ∧
        ∀ setup ∈ plan.setups,
          ∃ (index : Nat) (overview : Overview Binary64)
            (dataset : Dataset Binary64) (topology : Topology Binary64),
            (plan.setups.map Plan.loadKey).eraseDups[index]? =
              some setup.loadKey ∧
            overviews[index]? = some overview ∧
            setup.loads files = .ok (dataset, topology) ∧
            overview.Counts dataset topology) ∧
      ∀ fault, checked = .error fault →
        ∃ earlier setup later, plan.setups = earlier ++ setup :: later ∧
          (∀ other ∈ earlier, (other.loads files).isOk = true) ∧
          setup.loads files = .error fault := by
  obtain ⟨after, hrun, hafter⟩ := run_ofPlans hserves hmemory
    (Plan.distinct [] plan.setups)
  have hkeys : (Plan.distinct [] plan.setups).map Plan.loadKey =
      (plan.setups.map Plan.loadKey).eraseDups := by
    rw [Plan.distinct_keys]
    simp
  refine ⟨_, after, hrun, hafter,
    fun setup _ => Experiment.goesBy_loads hserves setup, ?_, ?_,
    fun fault hfault => first_fault hfault⟩
  · cases hchecked : (Plan.distinct [] plan.setups).mapM
        (Plan.overview files) with
    | ok overviews =>
        refine iff_of_true rfl fun setup hsetup => ?_
        obtain ⟨_, _, dataset, topology, _, _, hloads, _⟩ :=
          shown_at_key hchecked hsetup
        rw [hloads]
        rfl
    | error fault =>
        obtain ⟨earlier, setup, later, hsplit, _, hloads⟩ :=
          first_fault hchecked
        refine iff_of_false (by simp [Except.isOk, Except.toBool]) ?_
        intro hall
        have hok := hall setup (by simp [hsplit])
        rw [hloads] at hok
        cases hok
  · intro overviews hok
    rw [← hkeys]
    refine ⟨?_, fun setup hsetup => shown_at_key hok hsetup⟩
    rw [List.length_map, (mapM_eq_ok_iff.mp hok).length_eq]

end Overview

/-! ## Files in memory -/

namespace FileTree

/-- The surroundings of a run that works on files in memory. -/
def host : Host (StateM FileTree) where
  read path := return (← get).read? path
  createDirectory path := do
    match (← get).createDirectory? path with
    | some tree => set tree; return true
    | none => return false
  write path content := do
    match (← get).write? path content.toUTF8 with
    | some tree => set tree; return true
    | none => return false
  nanoseconds := return 0

/-- The contents of files by the parts of their paths. -/
def contents (tree : FileTree) (parts : List PathPart) : Option ByteArray :=
  (parts.foldlM tree.follow? []).bind tree.content?

theorem host_serves (tree : FileTree) :
    host.Serves (· = tree) tree.contents := by
  rintro directory table memory rfl
  exact ⟨memory, rfl, rfl⟩

end FileTree

/-- Two datasets. -/
def Sample.library : FileTree where
  directories := [["a"], ["b"]]
  files := [(["a", "Jobs.csv"], jobTable.toUTF8),
    (["a", "Tasks.csv"], (taskTable "5").toUTF8),
    (["b", "Jobs.csv"], jobTable.toUTF8),
    (["b", "Tasks.csv"], (taskTable "10").toUTF8)]

/-- Two of three setups have the same directory, written in two ways. -/
theorem Overview.sample_sweep_check :
    let plan := Sample.experiment 1 ["a", "a/", "b"]
    plan.setups.length = 3 ∧ ∃ overviews,
      (ofSweep FileTree.host plan).run Sample.library =
        (.ok overviews, Sample.library) ∧
      overviews.length = 2 := by
  intro plan
  refine ⟨rfl, ?_⟩
  obtain ⟨checked, after, hrun, rfl, _, hok, hshown, _⟩ :=
    sweep_check Sample.library.host_serves plan rfl
  have hchecked : checked.isOk = true := by
    rw [hok]
    decide +kernel
  cases checked with
  | error fault => cases hchecked
  | ok overviews =>
      refine ⟨overviews, hrun, ?_⟩
      rw [(hshown overviews rfl).1]
      decide +kernel

end FogDispatch
