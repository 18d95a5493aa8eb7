import FogDispatch.Proofs.SettingTables
import FogDispatch.Settings.Toml

/-!
# Names in settings documents

A settings document never names a setting twice: pairs, headers and tables in braces
are all added to tables under construction, which take every name once.
-/

namespace FogDispatch.Settings.Toml

/-! ## Tables under construction -/

inductive Draft.Distinct : Draft → Prop
  | value {v : Value} (hv : v.Distinct) : Distinct (.value v)
  | dotted {entries : Drafts} (hnames : (entries.map Prod.fst).Nodup)
      (hentries : ∀ entry ∈ entries, Distinct entry.2) : Distinct (.dotted entries)
  | table {defined : Bool} {entries : Drafts}
      (hnames : (entries.map Prod.fst).Nodup)
      (hentries : ∀ entry ∈ entries, Distinct entry.2) :
      Distinct (.table defined entries)
  | tables {elements : List Drafts}
      (hnames : ∀ entries ∈ elements, (entries.map Prod.fst).Nodup)
      (hentries : ∀ entries ∈ elements, ∀ entry ∈ entries, Distinct entry.2) :
      Distinct (.tables elements)

namespace Drafts

/-- Every name once, on all levels. -/
structure Distinct (drafts : Drafts) : Prop where
  names : (drafts.map Prod.fst).Nodup
  entries : ∀ entry ∈ drafts, entry.2.Distinct

theorem distinct_nil : Distinct [] := ⟨List.nodup_nil, fun _ hentry => nomatch hentry⟩

theorem Distinct.put {drafts : Drafts} (hdrafts : drafts.Distinct) {name : String}
    {draft : Draft} (hdraft : draft.Distinct) :
    Distinct (drafts.put name draft) := by
  refine ⟨Association.nodup_put hdrafts.names, fun entry hentry => ?_⟩
  rcases Association.mem_put hentry with heq | hold
  · exact heq ▸ hdraft
  · exact hdrafts.entries entry hold

theorem Distinct.of_get? {drafts : Drafts} (hdrafts : drafts.Distinct) {key : String}
    {draft : Draft} (hget : drafts.get? key = some draft) : draft.Distinct :=
  hdrafts.entries _ (Association.mem_of_get? hget)

theorem Distinct.dotted {drafts : Drafts} (hdrafts : drafts.Distinct) :
    (Draft.dotted drafts).Distinct := .dotted hdrafts.names hdrafts.entries

theorem Distinct.table {drafts : Drafts} (hdrafts : drafts.Distinct)
    (defined : Bool) : (Draft.table defined drafts).Distinct :=
  .table hdrafts.names hdrafts.entries

theorem distinct_tables {elements : List Drafts}
    (helements : ∀ drafts ∈ elements, Distinct drafts) :
    (Draft.tables elements).Distinct :=
  .tables (fun drafts hdrafts => (helements drafts hdrafts).names)
    fun drafts hdrafts => (helements drafts hdrafts).entries

theorem of_dotted {drafts : Drafts} (hdraft : (Draft.dotted drafts).Distinct) :
    drafts.Distinct := by
  cases hdraft with
  | dotted hnames hentries => exact ⟨hnames, hentries⟩

theorem of_table {defined : Bool} {drafts : Drafts}
    (hdraft : (Draft.table defined drafts).Distinct) : drafts.Distinct := by
  cases hdraft with
  | table hnames hentries => exact ⟨hnames, hentries⟩

theorem of_tables {elements : List Drafts}
    (hdraft : (Draft.tables elements).Distinct) :
    ∀ drafts ∈ elements, Distinct drafts := by
  cases hdraft with
  | tables hnames hentries =>
      exact fun drafts hdrafts => ⟨hnames drafts hdrafts, hentries drafts hdrafts⟩

/-! ## What each addition keeps -/

theorem Distinct.addDotted {value : Value} (hvalue : value.Distinct)
    {keys : List String} {drafts added : Drafts} (hdrafts : drafts.Distinct)
    (hadd : addDotted value keys drafts = some added) : added.Distinct := by
  fun_induction Drafts.addDotted value keys drafts generalizing added with
  | case1 => cases hadd
  | case2 drafts key hget =>
      obtain rfl := Option.some.inj hadd
      exact hdrafts.put (.value hvalue)
  | case3 => cases hadd
  | case4 drafts key keys _ hget ih =>
      obtain ⟨inner, hinner, rfl⟩ := Option.map_eq_some_iff.mp hadd
      exact hdrafts.put (ih distinct_nil hinner).dotted
  | case5 drafts key keys _ inner hget ih =>
      obtain ⟨inner', hinner, rfl⟩ := Option.map_eq_some_iff.mp hadd
      have hold := of_dotted (hdrafts.of_get? hget)
      exact hdrafts.put (ih hold hinner).dotted
  | case6 => cases hadd

theorem Distinct.addAll {body drafts added : Drafts} (hdrafts : drafts.Distinct)
    (hbody : ∀ entry ∈ body, entry.2.Distinct)
    (hadd : addAll drafts body = some added) : added.Distinct := by
  induction body generalizing drafts with
  | nil =>
      obtain rfl := Option.some.inj hadd
      exact hdrafts
  | cons entry rest ih =>
      obtain ⟨name, draft⟩ := entry
      obtain ⟨hdraft, hrest⟩ := List.forall_mem_cons.mp hbody
      rw [Drafts.addAll] at hadd
      split at hadd
      next => exact ih (hdrafts.put hdraft) hrest hadd
      next => cases hadd

/-- Entries that are changed at the last table of a list. -/
theorem distinct_last {elements : List Drafts} {last changed : Drafts}
    (helements : ∀ drafts ∈ elements, Distinct drafts)
    (hchanged : last.Distinct → changed.Distinct)
    (hlast : elements.getLast? = some last) :
    ∀ drafts ∈ elements.dropLast ++ [changed], Distinct drafts := by
  refine List.forall_mem_append.mpr ⟨fun drafts hdrafts =>
    helements drafts (List.mem_of_mem_dropLast hdrafts), fun drafts hdrafts => ?_⟩
  obtain rfl := List.mem_singleton.mp hdrafts
  exact hchanged (helements last (List.mem_of_getLast? hlast))

theorem Distinct.openTable {body : Drafts} (hbody : body.Distinct)
    {keys : List String} {drafts added : Drafts} (hdrafts : drafts.Distinct)
    (hadd : openTable body keys drafts = some added) : added.Distinct := by
  fun_induction Drafts.openTable body keys drafts generalizing added with
  | case1 => cases hadd
  | case2 drafts key hget =>
      obtain rfl := Option.some.inj hadd
      exact hdrafts.put (hbody.table true)
  | case3 drafts key entries hget =>
      obtain ⟨entries', hentries, rfl⟩ := Option.map_eq_some_iff.mp hadd
      have hold := of_table (hdrafts.of_get? hget)
      exact hdrafts.put ((hold.addAll hbody.entries hentries).table true)
  | case4 => cases hadd
  | case5 drafts key keys _ hget ih =>
      obtain ⟨inner, hinner, rfl⟩ := Option.map_eq_some_iff.mp hadd
      exact hdrafts.put ((ih distinct_nil hinner).table false)
  | case6 drafts key keys _ defined entries hget ih =>
      obtain ⟨inner, hinner, rfl⟩ := Option.map_eq_some_iff.mp hadd
      have hold := of_table (hdrafts.of_get? hget)
      exact hdrafts.put ((ih hold hinner).table defined)
  | case7 drafts key keys _ elements hget ih =>
      obtain ⟨last, hlast, hadd⟩ := Option.bind_eq_some_iff.mp hadd
      obtain ⟨inner, hinner, heq⟩ := Option.bind_eq_some_iff.mp hadd
      obtain rfl := Option.some.inj heq
      have hold := of_tables (hdrafts.of_get? hget)
      exact hdrafts.put (distinct_tables
        (distinct_last hold (fun hdistinct => ih last hdistinct hinner) hlast))
  | case8 => cases hadd

theorem Distinct.appendTable {body : Drafts} (hbody : body.Distinct)
    {keys : List String} {drafts added : Drafts} (hdrafts : drafts.Distinct)
    (hadd : appendTable body keys drafts = some added) : added.Distinct := by
  fun_induction Drafts.appendTable body keys drafts generalizing added with
  | case1 => cases hadd
  | case2 drafts key hget =>
      obtain rfl := Option.some.inj hadd
      refine hdrafts.put (distinct_tables fun element helement => ?_)
      exact List.mem_singleton.mp helement ▸ hbody
  | case3 drafts key elements hget =>
      obtain rfl := Option.some.inj hadd
      refine hdrafts.put (distinct_tables (List.forall_mem_append.mpr
        ⟨of_tables (hdrafts.of_get? hget), fun element helement => ?_⟩))
      exact List.mem_singleton.mp helement ▸ hbody
  | case4 => cases hadd
  | case5 drafts key keys _ hget ih =>
      obtain ⟨inner, hinner, rfl⟩ := Option.map_eq_some_iff.mp hadd
      exact hdrafts.put ((ih distinct_nil hinner).table false)
  | case6 drafts key keys _ defined entries hget ih =>
      obtain ⟨inner, hinner, rfl⟩ := Option.map_eq_some_iff.mp hadd
      have hold := of_table (hdrafts.of_get? hget)
      exact hdrafts.put ((ih hold hinner).table defined)
  | case7 drafts key keys _ elements hget ih =>
      obtain ⟨last, hlast, hadd⟩ := Option.bind_eq_some_iff.mp hadd
      obtain ⟨inner, hinner, heq⟩ := Option.bind_eq_some_iff.mp hadd
      obtain rfl := Option.some.inj heq
      have hold := of_tables (hdrafts.of_get? hget)
      exact hdrafts.put (distinct_tables
        (distinct_last hold (fun hdistinct => ih last hdistinct hinner) hlast))
  | case8 => cases hadd

end Drafts

/-! ## Finished tables -/

theorem finishEntries_eq (drafts : Drafts) :
    finishEntries drafts = drafts.map fun entry => (entry.1, entry.2.finish) := by
  induction drafts with
  | nil => rw [finishEntries, List.map_nil]
  | cons entry rest ih => rw [finishEntries, ih, List.map_cons]

theorem finishTables_eq (elements : List Drafts) :
    finishTables elements =
      elements.map fun entries => .table (finishEntries entries) := by
  induction elements with
  | nil => rw [finishTables, List.map_nil]
  | cons entries rest ih => rw [finishTables, ih, List.map_cons]

theorem distinct_finishEntries {drafts : Drafts}
    (hnames : (drafts.map Prod.fst).Nodup)
    (hentries : ∀ entry ∈ drafts, entry.2.finish.Distinct) :
    (Value.table (finishEntries drafts)).Distinct := by
  rw [finishEntries_eq]
  refine Value.distinct_table ?_ (List.forall_mem_map.mpr hentries)
  rwa [List.map_map]

theorem Draft.Distinct.finish {draft : Draft} (hdraft : draft.Distinct) :
    draft.finish.Distinct := by
  induction hdraft with
  | value hv => exact hv
  | dotted hnames _ ih => exact distinct_finishEntries hnames ih
  | table hnames _ ih => exact distinct_finishEntries hnames ih
  | tables hnames _ ih =>
      rw [Draft.finish, finishTables_eq]
      exact Value.distinct_list (List.forall_mem_map.mpr fun entries hentries =>
        distinct_finishEntries (hnames entries hentries) (ih entries hentries))

theorem Drafts.Distinct.finish {drafts : Drafts} (hdrafts : drafts.Distinct) :
    (Value.table (finishEntries drafts)).Distinct :=
  distinct_finishEntries hdrafts.names fun entry hentry =>
    (hdrafts.entries entry hentry).finish

/-! ## Values -/

/-- A number, a flag or a text: neither a table nor a list. -/
def Plain (value : Value) : Prop := value.entries = [] ∧ value.items = []

theorem plain_boundedWhole {n : Int} {value : Value}
    (hread : boundedWhole n = some value) : Plain value := by
  unfold boundedWhole at hread
  split at hread
  next =>
    obtain rfl := Option.some.inj hread
    exact ⟨rfl, rfl⟩
  next => cases hread

theorem plain_radixWhole? {radix : Nat} {cs : List Char} {value : Value}
    (hread : radixWhole? radix cs = some value) : Plain value := by
  obtain ⟨scanned, _, hread⟩ := Option.bind_eq_some_iff.mp hread
  dsimp only at hread
  split at hread
  next => exact plain_boundedWhole hread
  next => cases hread

theorem plain_finiteReal? {negative : Bool} {digits : List Char} {exponent : Int}
    {value : Value} (hread : finiteReal? negative digits exponent = some value) :
    Plain value := by
  unfold finiteReal? at hread
  dsimp only at hread
  split at hread
  next => cases hread
  next =>
    obtain rfl := Option.some.inj hread
    exact ⟨rfl, rfl⟩

theorem plain_readReal? {whole rest after : List Char} {fraction : Option (List Char)}
    {value : Value} (hread : readReal? whole fraction rest = some (value, after)) :
    Plain value := by
  obtain ⟨⟨negative, digits, suffix⟩, _, hread⟩ := Option.bind_eq_some_iff.mp hread
  cases fraction with
  | none =>
      obtain ⟨⟨exponent, left⟩, _, hread⟩ := Option.bind_eq_some_iff.mp hread
      obtain ⟨found, hfound, heq⟩ := Option.bind_eq_some_iff.mp hread
      obtain ⟨rfl, _⟩ := Prod.mk.inj (Option.some.inj heq)
      exact plain_finiteReal? hfound
  | some places =>
      dsimp only at hread
      split at hread
      next =>
        obtain ⟨⟨_, digits', suffix'⟩, _, hread⟩ := Option.bind_eq_some_iff.mp hread
        obtain ⟨⟨exponent, left⟩, _, hread⟩ := Option.bind_eq_some_iff.mp hread
        obtain ⟨found, hfound, heq⟩ := Option.bind_eq_some_iff.mp hread
        obtain ⟨rfl, _⟩ := Prod.mk.inj (Option.some.inj heq)
        exact plain_finiteReal? hfound
      next => cases hread

theorem plain_readNumber? {bare rest after : List Char} {value : Value}
    (hread : readNumber? bare rest = some (value, after)) : Plain value := by
  have hradix : ∀ {radix digits},
      (radixWhole? radix digits).map (·, rest) = some (value, after) →
        Plain value := by
    intro radix digits hread
    obtain ⟨found, hfound, heq⟩ := Option.map_eq_some_iff.mp hread
    obtain ⟨rfl, _⟩ := Prod.mk.inj heq
    exact plain_radixWhole? hfound
  have hreal : ∀ {a : Binary64} {left : List Char},
      some (Value.real a, left) = some (value, after) → Plain value := by
    intro a left heq
    obtain ⟨rfl, _⟩ := Prod.mk.inj (Option.some.inj heq)
    exact ⟨rfl, rfl⟩
  unfold readNumber? at hread
  split at hread
  next => exact hradix hread
  next => exact hradix hread
  next => exact hradix hread
  next =>
    split at hread
    next => exact plain_readReal? hread
    next =>
      split at hread
      next => exact plain_readReal? hread
      next =>
        split_ifs at hread
        · exact hreal hread
        · exact hreal hread
        · exact hreal hread
        · exact hreal hread
        · obtain ⟨⟨negative, digits, stray⟩, _, hread⟩ :=
            Option.bind_eq_some_iff.mp hread
          obtain ⟨found, hfound, hread⟩ := Option.bind_eq_some_iff.mp hread
          split at hread
          next =>
            obtain ⟨rfl, _⟩ := Prod.mk.inj (Option.some.inj hread)
            exact plain_boundedWhole hfound
          next => cases hread

theorem plain_readMoment? {bare rest after : List Char} {value : Value}
    (hread : readMoment? bare rest = some (value, after)) : Plain value := by
  unfold readMoment? at hread
  dsimp only at hread
  split at hread
  all_goals
    obtain ⟨⟨text, left⟩, _, hread⟩ := Option.bind_eq_some_iff.mp hread
    obtain ⟨moment, _, heq⟩ := Option.bind_eq_some_iff.mp hread
    obtain ⟨rfl, _⟩ := Prod.mk.inj (Option.some.inj heq)
    exact ⟨rfl, rfl⟩

theorem plain_readNumberOrMoment? {bare rest after : List Char} {value : Value}
    (hread : readNumberOrMoment? bare rest = some (value, after)) : Plain value := by
  unfold readNumberOrMoment? at hread
  split at hread
  next => exact plain_readMoment? hread
  next =>
    split at hread
    next =>
      obtain ⟨⟨clock, left⟩, _, hread⟩ := Option.bind_eq_some_iff.mp hread
      obtain ⟨moment, _, heq⟩ := Option.bind_eq_some_iff.mp hread
      obtain ⟨rfl, _⟩ := Prod.mk.inj (Option.some.inj heq)
      exact ⟨rfl, rfl⟩
    next => exact plain_readNumber? hread

theorem plain_readBare? {bare rest after : List Char} {value : Value}
    (hread : readBare? bare rest = some (value, after)) : Plain value := by
  unfold readBare? at hread
  split_ifs at hread
  · obtain ⟨rfl, _⟩ := Prod.mk.inj (Option.some.inj hread)
    exact ⟨rfl, rfl⟩
  · obtain ⟨rfl, _⟩ := Prod.mk.inj (Option.some.inj hread)
    exact ⟨rfl, rfl⟩
  · exact plain_readNumberOrMoment? hread
  · split at hread
    next =>
      split at hread
      next => exact plain_readNumberOrMoment? hread
      next => cases hread
    next => cases hread

/-- One level of reading, for the three readers that call each other. -/
structure ReadsDistinct (bound : Nat) : Prop where
  value : ∀ cs value rest, readValue? bound cs = some (value, rest) → value.Distinct
  items : ∀ items cs value rest, (∀ item ∈ items, item.Distinct) →
    readItems? bound items cs = some (value, rest) → value.Distinct
  inline : ∀ drafts cs value rest, drafts.Distinct →
    readInline? bound drafts cs = some (value, rest) → value.Distinct

theorem ReadsDistinct.readValue? {bound : Nat} (hreads : ReadsDistinct bound)
    {cs rest : List Char} {value : Value}
    (hread : Toml.readValue? (bound + 1) cs = some (value, rest)) :
    value.Distinct := by
  unfold Toml.readValue? at hread
  split at hread
  next =>
    exact hreads.items [] _ value rest (fun _ hitem => nomatch hitem) hread
  next =>
    split at hread
    next =>
      obtain ⟨rfl, _⟩ := Prod.mk.inj (Option.some.inj hread)
      exact Value.distinct_empty
    next => exact hreads.inline [] _ value rest Drafts.distinct_nil hread
  next =>
    obtain ⟨⟨bare, left⟩, _, hread⟩ := Option.bind_eq_some_iff.mp hread
    obtain ⟨hentries, hitems⟩ := plain_readNumber? hread
    exact Value.distinct_leaf hentries hitems
  next =>
    split at hread
    next =>
      obtain ⟨⟨multi, text, left⟩, _, heq⟩ := Option.map_eq_some_iff.mp hread
      obtain ⟨rfl, _⟩ := Prod.mk.inj heq
      exact Value.distinct_leaf rfl rfl
    next =>
      obtain ⟨hentries, hitems⟩ := plain_readBare? hread
      exact Value.distinct_leaf hentries hitems
  next => cases hread

theorem ReadsDistinct.readItems? {bound : Nat} (hreads : ReadsDistinct bound)
    {items : List Value} (hitems : ∀ item ∈ items, item.Distinct)
    {cs rest : List Char} {value : Value}
    (hread : Toml.readItems? (bound + 1) items cs = some (value, rest)) :
    value.Distinct := by
  unfold Toml.readItems? at hread
  split at hread
  next =>
    obtain ⟨rfl, _⟩ := Prod.mk.inj (Option.some.inj hread)
    exact Value.distinct_list hitems
  next =>
    obtain ⟨⟨item, left⟩, hitem, hread⟩ := Option.bind_eq_some_iff.mp hread
    have hmore : ∀ other ∈ items ++ [item], other.Distinct :=
      List.forall_mem_append.mpr ⟨hitems, fun other hother =>
        List.mem_singleton.mp hother ▸ hreads.value _ _ _ hitem⟩
    dsimp only at hread
    split at hread
    next => exact hreads.items _ _ value rest hmore hread
    next =>
      obtain ⟨rfl, _⟩ := Prod.mk.inj (Option.some.inj hread)
      exact Value.distinct_list hmore
    next => cases hread

theorem ReadsDistinct.readInline? {bound : Nat} (hreads : ReadsDistinct bound)
    {drafts : Drafts} (hdrafts : drafts.Distinct) {cs rest : List Char}
    {value : Value}
    (hread : Toml.readInline? (bound + 1) drafts cs = some (value, rest)) :
    value.Distinct := by
  unfold Toml.readInline? at hread
  obtain ⟨⟨keys, left⟩, _, hread⟩ := Option.bind_eq_some_iff.mp hread
  dsimp only at hread
  split at hread
  next =>
    obtain ⟨⟨read, left⟩, hvalue, hread⟩ := Option.bind_eq_some_iff.mp hread
    obtain ⟨added, hadd, hread⟩ := Option.bind_eq_some_iff.mp hread
    have hadded := hdrafts.addDotted (hreads.value _ _ _ hvalue) hadd
    dsimp only at hread
    split at hread
    next =>
      obtain ⟨rfl, _⟩ := Prod.mk.inj (Option.some.inj hread)
      exact hadded.finish
    next => exact hreads.inline added _ value rest hadded hread
    next => cases hread
  next => cases hread

theorem readsDistinct (bound : Nat) : ReadsDistinct bound := by
  induction bound with
  | zero =>
      constructor
      case value => exact fun cs value rest hread => by cases hread
      case items => exact fun items cs value rest _ hread => by cases hread
      case inline => exact fun drafts cs value rest _ hread => by cases hread
  | succ bound ih =>
      constructor
      case value => exact fun cs value rest => ih.readValue?
      case items => exact fun items cs value rest hitems => ih.readItems? hitems
      case inline =>
        exact fun drafts cs value rest hdrafts => ih.readInline? hdrafts

/-! ## Documents -/

theorem distinct_readPairs? {bound : Nat} {drafts added : Drafts}
    {cs rest : List Char} (hdrafts : drafts.Distinct)
    (hread : readPairs? bound drafts cs = some (added, rest)) : added.Distinct := by
  induction bound generalizing drafts cs with
  | zero => cases hread
  | succ bound ih =>
      unfold readPairs? at hread
      split at hread
      next =>
        obtain ⟨rfl, _⟩ := Prod.mk.inj (Option.some.inj hread)
        exact hdrafts
      next =>
        obtain ⟨rfl, _⟩ := Prod.mk.inj (Option.some.inj hread)
        exact hdrafts
      next =>
        obtain ⟨⟨keys, left⟩, _, hread⟩ := Option.bind_eq_some_iff.mp hread
        dsimp only at hread
        split at hread
        next =>
          obtain ⟨⟨value, left⟩, hvalue, hread⟩ := Option.bind_eq_some_iff.mp hread
          obtain ⟨more, hadd, hread⟩ := Option.bind_eq_some_iff.mp hread
          obtain ⟨next, _, hread⟩ := Option.bind_eq_some_iff.mp hread
          have hdistinct := (readsDistinct _).value _ _ _ hvalue
          exact ih (hdrafts.addDotted hdistinct hadd) hread
        next => cases hread

theorem distinct_readTables? {bound : Nat} {drafts added : Drafts}
    {cs : List Char} (hdrafts : drafts.Distinct)
    (hread : readTables? bound drafts cs = some added) : added.Distinct := by
  induction bound generalizing drafts cs with
  | zero => cases hread
  | succ bound ih =>
      cases cs with
      | nil =>
          obtain rfl := Option.some.inj hread
          exact hdrafts
      | cons c cs =>
          obtain ⟨⟨append, keys, left⟩, _, hread⟩ := Option.bind_eq_some_iff.mp hread
          obtain ⟨⟨body, left⟩, hpairs, hread⟩ := Option.bind_eq_some_iff.mp hread
          have hbody := distinct_readPairs? Drafts.distinct_nil hpairs
          dsimp only at hread
          split at hread
          next =>
            obtain ⟨more, hmore, hread⟩ := Option.bind_eq_some_iff.mp hread
            exact ih (hbody.appendTable hdrafts hmore) hread
          next =>
            obtain ⟨more, hmore, hread⟩ := Option.bind_eq_some_iff.mp hread
            exact ih (hbody.openTable hdrafts hmore) hread

/-- No table of a settings document names a setting twice. -/
theorem distinct_read? {text : String} {entries : Entries}
    (hread : read? text = some entries) : (Value.table entries).Distinct := by
  unfold read? at hread
  obtain ⟨⟨first, rest⟩, hpairs, hread⟩ := Option.bind_eq_some_iff.mp hread
  obtain ⟨drafts, htables, heq⟩ := Option.bind_eq_some_iff.mp hread
  obtain rfl := Option.some.inj heq
  have hfirst := distinct_readPairs? Drafts.distinct_nil hpairs
  exact (distinct_readTables? hfirst htables).finish

end FogDispatch.Settings.Toml
