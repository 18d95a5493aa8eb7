import FogDispatch.Proofs.Chronicle

/-!
# The histories of a sweep

The names of the histories of an episode tell its seed and its number.  They do
not tell its dataset, its count of fog nodes or its strategies, so the same
episode of a later setup is written over them.  In the end the files hold the
histories of the last episode of each seed and number: those of all episodes in
a sweep of a single setup, and those of the last setup in any other.
-/

namespace FogDispatch

/-! ## Names of histories -/

theorem toDigits_inj {number other : Nat}
    (hsame : Nat.toDigits 10 number = Nat.toDigits 10 other) :
    number = other := by
  have hread := congrArg (Nat.ofDigitChars 10 · 0) hsame
  simpa using hread

namespace Report

theorem seriesName_inj {what other : String} (hwhat : what ∈ kinds)
    (hother : other ∈ kinds) {seed seed' episode episode' : Nat}
    (hsame : seriesName what seed episode = seriesName other seed' episode') :
    what = other ∧ seed = seed' ∧ episode = episode' := by
  have hchars := congrArg String.toList hsame
  rw [toList_seriesName, toList_seriesName] at hchars
  have hkind : what = other := by
    simp only [kinds, List.mem_cons, List.not_mem_nil, or_false] at hwhat hother
    rcases hwhat with rfl | rfl | rfl <;> rcases hother with rfl | rfl | rfl <;>
      simp at hchars ⊢
  subst hkind
  rw [List.append_cancel_left_eq, List.append_cancel_left_eq] at hchars
  -- Digits end at the first underscore.
  have hmark : "_ep".toList = '_' :: "ep".toList := rfl
  rw [hmark, List.cons_append, List.cons_append] at hchars
  have hsplit := congrArg (splitFirst? '_') hchars
  rw [splitFirst?_append _ Nat.underscore_not_in_toDigits,
    splitFirst?_append _ Nat.underscore_not_in_toDigits, Option.some.injEq,
    Prod.mk.injEq, List.append_cancel_left_eq,
    List.append_cancel_right_eq] at hsplit
  exact ⟨rfl, toDigits_inj hsplit.1, toDigits_inj hsplit.2⟩

variable {info info' : RunInfo} {metrics metrics' : EpisodeMetrics Binary64}
  {item other : String × List Binary64}

theorem eq_of_mem_series (hitem : item ∈ series info metrics)
    (hother : other ∈ series info metrics) (hname : item.1 = other.1) :
    item = other := by
  have hkinds : (kinds.map (seriesName · info.seed metrics.episode)).Nodup := by
    rw [List.nodup_map_iff_inj_on (by decide)]
    intro what hwhat what' hwhat' hsame
    exact (seriesName_inj hwhat hwhat' hsame).1
  have hnames : ((series info metrics).map Prod.fst).Nodup := hkinds
  exact List.inj_on_of_nodup_map hnames hitem hother hname

/-- The path of a history tells its name, and its name tells the seed and the
number of its episode. -/
theorem eq_of_path (directory : String) (hitem : item ∈ series info metrics)
    (hother : other ∈ series info' metrics')
    (hpath : Location.join directory item.1 =
      Location.join directory other.1) :
    item.1 = other.1 ∧ info.seed = info'.seed ∧
      metrics.episode = metrics'.episode := by
  obtain ⟨what, hwhat, hname⟩ := exists_kind hitem
  obtain ⟨what', hwhat', hname'⟩ := exists_kind hother
  rw [hname, hname'] at hpath ⊢
  have hsame := Location.eq_of_join (seriesName_relative hwhat _ _)
    (seriesName_relative hwhat' _ _) hpath
  exact ⟨hsame, (seriesName_inj hwhat hwhat' hsame).2⟩

/-- What is written under a path of its own is there in the end. -/
theorem content_entries {directory : String}
    {items : List (String × List Binary64)} (hitem : item ∈ items)
    (halone : ∀ other ∈ items, Location.join directory other.1 =
      Location.join directory item.1 → other = item) (before : Option String) :
    (entries directory items).foldl
        (Entry.overwrites (Location.join directory item.1)) before =
      some (seriesText item.2) := by
  induction items generalizing before with
  | nil => simp at hitem
  | cons first rest ih =>
      obtain ⟨hfirst, hrest⟩ := List.forall_mem_cons.mp halone
      by_cases hlater : item ∈ rest
      · exact ih hlater hrest _
      · obtain rfl : item = first := by simpa [hlater] using hitem
        have helsewhere : Entry.Elsewhere (Location.join directory item.1)
            (entries directory rest) := by
          apply elsewhere_entries
          intro other hother hsame
          rw [hrest other hother hsame] at hother
          exact hlater hother
        rw [entries, List.map_cons, List.foldl_cons, ← entries,
          helsewhere.content, Entry.overwrites, if_pos rfl]

end Report

/-! ## What the files hold in the end -/

namespace Record

/-- What the names of the histories of an episode tell. -/
def key (record : Record) : Nat × Nat :=
  (record.trial.seed, record.metrics.episode)

/-- The files of the histories of an episode hold them. -/
def Kept (plan : Plan Binary64) (journal : List Entry) (record : Record) :
    Prop :=
  ∀ item ∈ record.histories plan,
    Entry.content? (Location.join plan.outputDir item.1) journal =
      some (seriesText item.2)

/-- The last one of some records with its key. -/
def Latest (records : List Record) (record : Record) : Prop :=
  (records.filter fun other => other.key = record.key).getLast? = some record

theorem latest_of_nodup {records : List Record} {record : Record}
    (hkeys : (records.map key).Nodup) (hrecord : record ∈ records) :
    record.Latest records := by
  obtain ⟨front, back, rfl⟩ := List.append_of_mem hrecord
  rw [List.map_append, List.map_cons, List.nodup_append] at hkeys
  have hback : back.filter (fun other => other.key = record.key) = [] := by
    simp only [List.filter_eq_nil_iff, decide_eq_true_eq]
    intro other hother hsame
    apply (List.nodup_cons.mp hkeys.2.1).1
    exact hsame ▸ List.mem_map_of_mem hother
  simp [Latest, hback]

end Record

namespace Chronicle

variable {plan : Plan Binary64} {told : Option Trial} {records : List Record}
  {journal : List Entry}

theorem table (hchronicle : Chronicle plan told records journal) :
    Entry.content? (Location.join plan.outputDir Report.tableName) journal =
      some (tableText (records.map (Record.row plan))) := by
  induction hchronicle with
  | opened => exact if_pos rfl
  | announced trial answered _ ih => simpa [Entry.overwrites] using ih
  | asked answered _ _ ih => simpa [Entry.overwrites] using ih
  | recorded record _ ih =>
      have helsewhere := Report.elsewhere_entries (Report.join_series_ne
        plan.outputDir (record.trial.info plan) record.metrics)
      rw [Entry.content?_append, List.foldl_cons, Record.histories,
        helsewhere.content, Entry.overwrites, if_pos rfl]

theorem kept (hchronicle : Chronicle plan told records journal)
    {record : Record} (hlatest : record.Latest records) :
    record.Kept plan journal := by
  intro item hitem
  induction hchronicle with
  | opened => simp [Record.Latest] at hlatest
  | announced trial answered _ ih =>
      simpa [Entry.overwrites] using ih hlatest
  | asked answered _ _ ih => simpa [Entry.overwrites] using ih hlatest
  | @recorded records journal newest hearlier ih =>
      have htable := Report.join_series_ne plan.outputDir
        (record.trial.info plan) record.metrics item hitem
      rw [Entry.content?_append, List.foldl_cons, Entry.overwrites,
        if_neg htable.symm]
      by_cases hkey : newest.key = record.key
      · obtain rfl : newest = record := by
          simpa [Record.Latest, hkey] using hlatest
        apply Report.content_entries hitem
        intro other hother hpath
        exact Report.eq_of_mem_series hother hitem
          (Report.eq_of_path plan.outputDir hother hitem hpath).1
      · have helsewhere : Entry.Elsewhere
            (Location.join plan.outputDir item.1)
            (Report.entries plan.outputDir (newest.histories plan)) := by
          apply Report.elsewhere_entries
          intro other hother hpath
          apply hkey
          obtain ⟨_, hseed, hnumber⟩ :=
            Report.eq_of_path plan.outputDir hother hitem hpath
          exact Prod.ext hseed hnumber
        rw [helsewhere.content]
        apply ih
        simpa [Record.Latest, hkey] using hlatest

/-- Whatever is written is the table or a history of an episode on record. -/
theorem wrote (hchronicle : Chronicle plan told records journal)
    {path text : String} (hmem : Entry.wrote path text ∈ journal) :
    path = Location.join plan.outputDir Report.tableName ∨
      ∃ record ∈ records, ∃ item ∈ record.histories plan,
        path = Location.join plan.outputDir item.1 ∧
          text = seriesText item.2 := by
  induction hchronicle with
  | opened =>
      left
      simp only [List.mem_singleton, Entry.wrote.injEq] at hmem
      exact hmem.1
  | announced trial answered _ ih => exact ih (by simpa using hmem)
  | asked answered _ _ ih => exact ih (by simpa using hmem)
  | recorded record _ ih =>
      simp only [List.mem_append, List.mem_cons, Entry.wrote.injEq,
        Report.entries, List.mem_map] at hmem
      rcases hmem with hold | ⟨htable, _⟩ | ⟨item, hitem, rfl, rfl⟩
      · refine (ih hold).imp_right ?_
        rintro ⟨earlier, hearlier, hitem⟩
        exact ⟨earlier, List.mem_append_left _ hearlier, hitem⟩
      · exact .inl htable
      · exact .inr ⟨record, by simp, item, hitem, rfl, rfl⟩

end Chronicle

/-- In a single setup the names of histories tell all episodes apart. -/
theorem Plan.nodup_keys {plan : Plan Binary64}
    (hseeds : plan.experiment.seeds.Nodup) (hsingle : plan.setups.length = 1) :
    (plan.sweep.map fun (trial, episode) => (trial.seed, episode)).Nodup := by
  rw [plan.setups_eq, List.length_map, List.length_eq_one_iff] at hsingle
  obtain ⟨⟨path, fogNodes, pair⟩, hplace⟩ := hsingle
  have htrials : plan.trials =
      plan.experiment.seeds.map (Trial.mk path fogNodes pair) := by
    rw [plan.trials_eq, hplace]
    simp [Plan.trialsOf]
  have hkeys : plan.sweep.map (fun (trial, episode) => (trial.seed, episode)) =
      plan.experiment.seeds ×ˢ List.range plan.experiment.episodes := by
    rw [Plan.sweep, htrials]
    simp only [SProd.sprod, List.product, List.map_flatMap, List.flatMap_map,
      List.map_map]
    rfl
  rw [hkeys]
  exact hseeds.product List.nodup_range

variable {σ : Type}

/-- Whenever a run ends, the table has a row for each episode on record, and the
files hold the histories of the last one of each seed and number.  With
different seeds these are all episodes if there is a single setup. -/
theorem Experiment.histories_of_last (host : Host (StateM σ))
    (policy : Policy (StateM σ) Binary64) (allotted : Nat)
    (plan : Plan Binary64) (memory : σ) :
    let ended := (run host.journaled policy.journaled allotted plan).run
      ([], memory)
    ∃ records : List Record,
      records.map Record.point <+: plan.sweep ∧
      (ended.1.isOk = true → records.map Record.point = plan.sweep) ∧
      (∀ record ∈ records, record.Played plan policy.journaled allotted) ∧
      Entry.content? (Location.join plan.outputDir Report.tableName)
          ended.2.1 = some (tableText (records.map (Record.row plan))) ∧
      (∀ record : Record, record.Latest records →
        record.Kept plan ended.2.1) ∧
      (plan.experiment.seeds.Nodup → plan.setups.length = 1 →
        ∀ record ∈ records, record.Kept plan ended.2.1) := by
  intro ended
  obtain ⟨told, records, hchronicle, hplayed, hpoints, hwhole⟩ :=
    run_chronicle host policy allotted plan memory
  refine ⟨records, hpoints, hwhole, hplayed, hchronicle.table,
    fun record hlatest => hchronicle.kept hlatest, ?_⟩
  intro hseeds hsingle record hrecord
  have hkeys : (records.map Record.key).Nodup := by
    have hsweep := (hpoints.sublist.map fun (trial, episode) =>
      (trial.seed, episode)).nodup (Plan.nodup_keys hseeds hsingle)
    rwa [List.map_map] at hsweep
  exact hchronicle.kept (Record.latest_of_nodup hkeys hrecord)

/-- The seeds are different and the run succeeds, and yet the rewards of the
first dataset are gone: those of the second one have the same name. -/
theorem Experiment.histories_lost :
    let plan := Sample.experiment 1 ["a", "b"]
    let ended := Sample.ended 1 ["a", "b"]
    plan.experiment.seeds.Nodup ∧ ended.1.isOk = true ∧
      ∃ told records, Chronicle plan told records ended.2.1 ∧
        records.map Record.point = plan.sweep ∧
        ∃ record ∈ records, ¬ record.Kept plan ended.2.1 := by
  intro plan ended
  have hrun : ended.1.isOk = true ∧
      Entry.wrote "out/reward_seed7_ep0.csv" "index,value\n0,0.199\n" ∈
        ended.2.1 ∧
      Entry.content? "out/reward_seed7_ep0.csv" ended.2.1 =
        some "index,value\n0,0.198\n" := by
    decide +kernel
  obtain ⟨hended, hwrote, hcontent⟩ := hrun
  obtain ⟨told, records, hchronicle, _, _, hwhole⟩ :=
    run_chronicle Sample.disk Sample.service 20 plan ()
  refine ⟨by decide, hended, told, records, hchronicle, hwhole hended, ?_⟩
  rcases hchronicle.wrote hwrote with htable | ⟨record, hrecord, item, hitem,
    hpath, htext⟩
  · exact absurd htable (by decide +kernel)
  · refine ⟨record, hrecord, fun hkept => ?_⟩
    have hholds := hkept item hitem
    rw [← hpath, ← htext] at hholds
    have hsame := hholds.symm.trans hcontent
    exact absurd hsame (by decide)

end FogDispatch
