import FogDispatch.Proofs.AnswerGrammar
import FogDispatch.Proofs.SettingTables
import FogDispatch.Settings.Layers

/-!
# Texts of paths

Plain names with points between them spell the path of their tables.  The name of an
environment variable spells one as well, with a pair of underscores for every point
and in any case, and two of them spell the same path only if they are the same in
lower case.
-/

namespace FogDispatch.Settings

/-- A name that can stand in a path as it is. -/
def PlainName (name : String) : Prop :=
  name.toList ≠ [] ∧ ∀ c ∈ name.toList, Path.isNameChar c = true

instance (name : String) : Decidable (PlainName name) :=
  decidable_of_iff (name.toList ≠ [] ∧ name.toList.all Path.isNameChar = true)
    (and_congr_right' List.all_eq_true)

namespace Path

/-- The text of the path below some tables. -/
def spelled (keys : List String) : String := String.intercalate "." keys

theorem readName?_append {name : String} (hname : PlainName name) {rest : List Char}
    (hrest : Stops isNameChar rest) :
    readName? (name.toList ++ rest) = some (name, rest) := by
  unfold readName?
  rw [takeWhile_run hname.2 hrest, dropWhile_run hname.2 hrest]
  simp [hname.1, String.ofList_toList]

/-- The text of keys below the first one. -/
def below (keys : List String) : List Char := keys.flatMap ('.' :: ·.toList)

theorem toList_spelled (key : String) (keys : List String) :
    (spelled (key :: keys)).toList = key.toList ++ below keys := by
  induction keys generalizing key with
  | nil => simp [spelled, below]
  | cons next keys ih =>
      have htail : (spelled (next :: keys)).toList =
          ['.'].intercalate ((next :: keys).map String.toList) := by
        rw [spelled, String.toList_intercalate]
        rfl
      have hdot : ".".toList = ['.'] := rfl
      rw [spelled, String.toList_intercalate, hdot, List.map_cons, List.map_cons,
        List.intercalate_cons_cons, ← List.map_cons, ← htail, ih, below, below,
        List.flatMap_cons]
      simp

theorem stops_below (keys : List String) : Stops isNameChar (below keys) := by
  cases keys with
  | nil => exact stops_nil
  | cons key keys => exact stops_cons (by decide) _

theorem readSteps?_below {keys : List String} (hkeys : ∀ key ∈ keys, PlainName key)
    {bound : Nat} (hbound : keys.length ≤ bound) :
    readSteps? bound (below keys) = some (keys.map .key) := by
  induction keys generalizing bound with
  | nil => cases bound <;> rfl
  | cons key keys ih =>
      obtain ⟨hkey, hrest⟩ := List.forall_mem_cons.mp hkeys
      obtain ⟨bound, rfl⟩ : ∃ n, bound = n + 1 := by
        exact ⟨bound - 1, by rw [List.length_cons] at hbound; omega⟩
      have htail : below (key :: keys) = '.' :: (key.toList ++ below keys) := by
        rw [below, List.flatMap_cons]
        rfl
      rw [htail, readSteps?, readName?_append hkey (stops_below keys)]
      rw [List.length_cons] at hbound
      simp [ih hrest (by omega : keys.length ≤ bound)]

theorem length_le_below {keys : List String} : keys.length ≤ (below keys).length := by
  induction keys with
  | nil => exact le_rfl
  | cons key keys ih =>
      rw [below, List.flatMap_cons, List.length_append, List.length_cons,
        List.length_cons, ← below]
      omega

theorem read?_spelled {key : String} {keys : List String} (hkey : PlainName key)
    (hkeys : ∀ key ∈ keys, PlainName key) :
    read? (spelled (key :: keys)) = some ⟨key, keys.map .key⟩ := by
  unfold read?
  rw [toList_spelled, readName?_append hkey (stops_below keys)]
  simp [readSteps?_below hkeys length_le_below]

theorem read?_plain {name : String} (hname : PlainName name) :
    read? name = some ⟨name, []⟩ := by
  have hread : read? (spelled [name]) = some ⟨name, []⟩ :=
    read?_spelled hname fun _ hkey => nomatch hkey
  rwa [spelled, String.intercalate_singleton] at hread

theorem get?_keys (key : String) (keys : List String) (root : Value) :
    get? ⟨key, keys.map .key⟩ root = root.at? (key :: keys) := by
  have hstep : ∀ name (value : Value),
      stepTo? value (.key name) = Association.get? name value.entries := by
    intro name value
    cases value <;> rfl
  have hall : ∀ names (value : Value),
      (names.map Step.key).foldlM stepTo? value = value.at? names := by
    intro names
    induction names with
    | nil => exact fun value => rfl
    | cons name names ih =>
        intro value
        rw [List.map_cons, List.foldlM_cons, hstep, Value.at?_cons]
        exact congrArg _ (funext ih)
  exact hall (key :: keys) root

end Path

theorem Layered.get_spelled (settings : Layered) {key : String} {keys : List String}
    (hkey : PlainName key) (hkeys : ∀ other ∈ keys, PlainName other) :
    settings.get (Path.spelled (key :: keys)) =
      (settings.root.at? (key :: keys)).elim (.error .badSettings) .ok := by
  unfold Layered.get
  rw [Path.read?_spelled hkey hkeys, Option.bind_some, Path.get?_keys]
  cases settings.root.at? (key :: keys) <;> rfl

/-! ## Names of variables -/

namespace Layer

open Text

/-- Whether a variable of this name counts. -/
def counts (name : String) : Bool :=
  environmentMark.isPrefixOf (lowercase name.toList)

/-- The keys that the name of a variable spells. -/
def keysOf (name : String) : List String :=
  (splitAll '.' (lowercase (pointed (name.toList.drop environmentMark.length)))).map
    String.ofList

theorem spelled_keysOf (name : String) :
    Path.spelled (keysOf name) = String.ofList
      (lowercase (pointed (name.toList.drop environmentMark.length))) := by
  apply String.toList_inj.mp
  have hdot : ".".toList = ['.'] := rfl
  have hsame : String.toList ∘ String.ofList = id := funext fun cs => String.toList_ofList
  rw [Path.spelled, String.toList_intercalate, keysOf, List.map_map, hsame,
    List.map_id, hdot, intercalate_splitAll, String.toList_ofList]

theorem keysOf_ne_nil (name : String) : keysOf name ≠ [] := by
  rw [keysOf, ne_eq, List.map_eq_nil_iff]
  exact splitAll_ne_nil _ _

/-- The points back as pairs of underscores. -/
def unpointed (cs : List Char) : List Char :=
  cs.flatMap fun c => if c = '.' then ['_', '_'] else [c]

theorem lt_of_isNameChar {c : Char} (hc : Path.isNameChar c = true) :
    c.toNat < 128 := by
  have hle : ∀ d : Char, c ≤ d → d.toNat < 128 → c.toNat < 128 :=
    fun d hcd hd => lt_of_le_of_lt hcd hd
  simp only [Path.isNameChar, Bool.or_eq_true, Bool.and_eq_true,
    decide_eq_true_eq, beq_iff_eq] at hc
  rcases hc with ((((hlow | hup) | hdigit) | rfl) | rfl) | rfl
  · exact hle 'z' hlow.2 (by decide)
  · exact hle 'Z' hup.2 (by decide)
  · rw [isDigit, digitValue?] at hdigit
    split at hdigit
    next hrange => exact hle '9' hrange.2 (by decide)
    next => cases hdigit
  all_goals decide

theorem lowercase_eq_map {cs : List Char} (hcs : ∀ c ∈ cs, c.toNat < 128) :
    lowercase cs = cs.map Char.toLower := by
  induction cs with
  | nil => rfl
  | cons c cs ih =>
      obtain ⟨hc, hrest⟩ := List.forall_mem_cons.mp hcs
      have hchar : lowercaseChar c = [c.toLower] := if_pos hc
      rw [lowercase, List.flatMap_cons, hchar, ← lowercase, ih hrest, List.map_cons]
      rfl

theorem toLower_ne_dot {c : Char} (hc : Path.isNameChar c = true) :
    c.toLower ≠ '.' := by
  have hall : ∀ n : Fin 128, Path.isNameChar (Char.ofNat n) = true →
      (Char.ofNat n).toLower ≠ '.' := by decide
  have hsome := hall ⟨c.toNat, lt_of_isNameChar hc⟩
  rw [Char.ofNat_toNat] at hsome
  exact hsome hc

theorem mem_pointed {c : Char} {cs : List Char} (hc : c ∈ pointed cs) :
    c ∈ cs ∨ c = '.' := by
  fun_induction pointed cs with
  | case1 rest ih =>
      rcases List.mem_cons.mp hc with rfl | hrest
      · exact .inr rfl
      · exact (ih hrest).imp (List.mem_cons_of_mem _ ∘ List.mem_cons_of_mem _) id
  | case2 d rest _ ih =>
      rcases List.mem_cons.mp hc with rfl | hrest
      · exact .inl List.mem_cons_self
      · exact (ih hrest).imp (List.mem_cons_of_mem _) id
  | case3 => cases hc

theorem unpointed_pointed {cs : List Char}
    (hcs : ∀ c ∈ cs, Path.isNameChar c = true) :
    unpointed ((pointed cs).map Char.toLower) = cs.map Char.toLower := by
  fun_induction pointed cs with
  | case1 rest ih =>
      have hrest := ih fun c hc =>
        hcs c (List.mem_cons_of_mem _ (List.mem_cons_of_mem _ hc))
      rw [List.map_cons, unpointed, List.flatMap_cons, ← unpointed, hrest]
      rfl
  | case2 d rest _ ih =>
      obtain ⟨hd, hrest⟩ := List.forall_mem_cons.mp hcs
      rw [List.map_cons, unpointed, List.flatMap_cons, ← unpointed, ih hrest,
        if_neg (toLower_ne_dot hd)]
      rfl
  | case3 => rfl

/-- Names of plain characters that spell the same path differ in case only. -/
theorem lowercase_eq_of_spelled_eq {name other : String}
    (hname : counts name = true) (hother : counts other = true)
    (hplain : ∀ c ∈ name.toList, Path.isNameChar c = true)
    (hplain' : ∀ c ∈ other.toList, Path.isNameChar c = true)
    (hspelled : Path.spelled (keysOf name) = Path.spelled (keysOf other)) :
    lowercase name.toList = lowercase other.toList := by
  have hwhole : ∀ text : String, counts text = true →
      (∀ c ∈ text.toList, Path.isNameChar c = true) →
      lowercase text.toList = environmentMark ++
        unpointed (lowercase (pointed (text.toList.drop environmentMark.length))) := by
    intro text hcounts hchars
    have hdrop : ∀ c ∈ text.toList.drop environmentMark.length,
        Path.isNameChar c = true := fun c hc => hchars c (List.mem_of_mem_drop hc)
    have hpointed : ∀ c ∈ pointed (text.toList.drop environmentMark.length),
        c.toNat < 128 := by
      intro c hc
      rcases mem_pointed hc with hold | rfl
      · exact lt_of_isNameChar (hdrop c hold)
      · decide
    rw [counts, lowercase_eq_map fun c hc => lt_of_isNameChar (hchars c hc),
      List.isPrefixOf_iff_prefix, List.prefix_iff_eq_take] at hcounts
    rw [lowercase_eq_map hpointed, unpointed_pointed hdrop,
      lowercase_eq_map fun c hc => lt_of_isNameChar (hchars c hc)]
    calc
      text.toList.map Char.toLower =
          (text.toList.map Char.toLower).take environmentMark.length ++
            (text.toList.map Char.toLower).drop environmentMark.length :=
        (List.take_append_drop _ _).symm
      _ = _ := by rw [← hcounts, List.map_drop]
  have htext := congrArg String.toList hspelled
  rw [spelled_keysOf, spelled_keysOf, String.toList_ofList, String.toList_ofList] at htext
  rw [hwhole name hname hplain, hwhole other hother hplain', htext]

/-- The keys and texts of the variables that count. -/
def assigned (assignments : List (String × String)) : List (List String × String) :=
  (assignments.filter fun assignment => counts assignment.1).map
    fun assignment => (keysOf assignment.1, assignment.2)

/-- The variables that count have plain names without empty keys, no two of which
are the same in lower case. -/
structure PlainVariables (assignments : List (String × String)) : Prop where
  chars : ∀ assignment ∈ assignments, counts assignment.1 = true →
    ∀ c ∈ assignment.1.toList, Path.isNameChar c = true
  keys : ∀ assignment ∈ assignments, counts assignment.1 = true →
    ∀ key ∈ keysOf assignment.1, PlainName key
  distinct : ((assignments.filter fun assignment => counts assignment.1).map
    fun assignment => lowercase assignment.1.toList).Nodup

/-- Plain variables spell different paths. -/
theorem PlainVariables.nodup_spelled {assignments : List (String × String)}
    (hplain : PlainVariables assignments) :
    ((assigned assignments).map fun setting => Path.spelled setting.1).Nodup := by
  rw [assigned, List.map_map]
  have hnames := List.pairwise_map.mp hplain.distinct
  refine List.pairwise_map.mpr (hnames.imp_of_mem ?_)
  intro assignment other hassignment hother hdiffer hspelled
  obtain ⟨hmem, hcounts⟩ := List.mem_filter.mp hassignment
  obtain ⟨hmem', hcounts'⟩ := List.mem_filter.mp hother
  exact hdiffer (lowercase_eq_of_spelled_eq hcounts hcounts'
    (hplain.chars _ hmem hcounts) (hplain.chars _ hmem' hcounts') hspelled)

theorem PlainVariables.plain_keys {assignments : List (String × String)}
    (hplain : PlainVariables assignments) :
    ∀ setting ∈ assigned assignments, ∃ key keys, setting.1 = key :: keys ∧
      PlainName key ∧ ∀ other ∈ keys, PlainName other := by
  intro setting hsetting
  obtain ⟨assignment, hassignment, rfl⟩ := List.mem_map.mp hsetting
  obtain ⟨hmem, hcounts⟩ := List.mem_filter.mp hassignment
  obtain ⟨key, keys, hkeys⟩ := List.exists_cons_of_ne_nil (keysOf_ne_nil assignment.1)
  have hall := hplain.keys _ hmem hcounts
  rw [hkeys] at hall
  exact ⟨key, keys, hkeys, List.forall_mem_cons.mp hall⟩

end Layer
end FogDispatch.Settings
