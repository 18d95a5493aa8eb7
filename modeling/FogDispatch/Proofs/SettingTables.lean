import FogDispatch.Settings.Value
import Mathlib.Tactic

/-!
# Tables of settings

A place in a table is named by keys, one for every table on the way, and it shows a
table, another setting or nothing.  Where two tables agree on which places are
tables, writing one over the other is described place by place: the upper one is
seen where it shows something, and the lower one is seen through everywhere else.
-/

namespace FogDispatch.Settings

/-! ## Names and what they stand for -/

namespace Association

variable {β : Type} {pairs : Association β}

@[simp] theorem get?_nil (key : String) : get? key ([] : Association β) = none := rfl

@[simp] theorem get?_cons (key name : String) (value : β) (rest : Association β) :
    get? key ((name, value) :: rest) =
      if name = key then some value else get? key rest := rfl

@[simp] theorem get?_put (key name : String) (value : β) (pairs : Association β) :
    get? key (put name value pairs) =
      if name = key then some value else get? key pairs := by
  induction pairs with
  | nil => rfl
  | cons pair rest ih =>
      obtain ⟨other, old⟩ := pair
      rw [put]
      split
      next hname =>
        subst hname
        rw [get?_cons, get?_cons]
        split <;> rfl
      next hname =>
        rw [get?_cons, get?_cons, ih]
        by_cases hkey : name = key
        · rw [if_pos hkey, if_pos hkey, if_neg (hkey ▸ hname)]
        · rw [if_neg hkey, if_neg hkey]

theorem mem_of_get? {key : String} {value : β} (hget : get? key pairs = some value) :
    (key, value) ∈ pairs := by
  induction pairs with
  | nil => cases hget
  | cons pair rest ih =>
      obtain ⟨name, first⟩ := pair
      rw [get?_cons] at hget
      split at hget
      next hname =>
        subst hname
        exact Option.some.inj hget ▸ List.mem_cons_self
      next => exact List.mem_cons_of_mem _ (ih hget)

theorem get?_eq_none {key : String} (hkey : key ∉ pairs.map Prod.fst) :
    get? key pairs = none := by
  cases hget : get? key pairs with
  | none => rfl
  | some value =>
      exact absurd (List.mem_map_of_mem (f := Prod.fst) (mem_of_get? hget)) hkey

theorem put_fresh {name : String} (hname : name ∉ pairs.map Prod.fst) (value : β) :
    put name value pairs = pairs ++ [(name, value)] := by
  induction pairs with
  | nil => rfl
  | cons pair rest ih =>
      obtain ⟨other, old⟩ := pair
      rw [List.map_cons, List.mem_cons, not_or] at hname
      rw [put, if_neg (Ne.symm hname.1), ih hname.2, List.cons_append]

theorem mem_names_put {key name : String} {value : β}
    (hkey : key ∈ (put name value pairs).map Prod.fst) :
    key = name ∨ key ∈ pairs.map Prod.fst := by
  induction pairs with
  | nil => simpa [put] using hkey
  | cons pair rest ih =>
      obtain ⟨other, old⟩ := pair
      rw [put] at hkey
      split at hkey
      next => exact .inr hkey
      next =>
        rcases List.mem_cons.mp hkey with rfl | hrest
        · exact .inr List.mem_cons_self
        · exact (ih hrest).imp id (List.mem_cons_of_mem _)

theorem nodup_put {name : String} {value : β}
    (hnames : (pairs.map Prod.fst).Nodup) :
    ((put name value pairs).map Prod.fst).Nodup := by
  induction pairs with
  | nil => simp [put]
  | cons pair rest ih =>
      obtain ⟨other, old⟩ := pair
      obtain ⟨hother, hrest⟩ := List.nodup_cons.mp hnames
      rw [put]
      split
      next => exact hnames
      next hname =>
        refine List.nodup_cons.mpr ⟨fun hmem => ?_, ih hrest⟩
        exact (mem_names_put hmem).elim hname hother

theorem mem_put {pair : String × β} {name : String} {value : β}
    (hpair : pair ∈ put name value pairs) :
    pair.2 = value ∨ pair ∈ pairs := by
  induction pairs with
  | nil => exact .inl (congrArg Prod.snd (List.mem_singleton.mp hpair))
  | cons first rest ih =>
      obtain ⟨other, old⟩ := first
      rw [put] at hpair
      split at hpair
      next =>
        rcases List.mem_cons.mp hpair with rfl | hrest
        · exact .inl rfl
        · exact .inr (List.mem_cons_of_mem _ hrest)
      next =>
        rcases List.mem_cons.mp hpair with rfl | hrest
        · exact .inr List.mem_cons_self
        · exact (ih hrest).imp id (List.mem_cons_of_mem _)

end Association

theorem Entries.get?_erase (key name : String) (entries : Entries) :
    (erase name entries).get? key = if name = key then none else entries.get? key := by
  induction entries with
  | nil => simp [erase]
  | cons entry rest ih =>
      obtain ⟨other, old⟩ := entry
      rw [erase, List.filter_cons]
      by_cases hother : other = name
      · rw [if_neg (by simpa using hother), ← erase, ih, Association.get?_cons, hother]
        split <;> simp_all
      · rw [if_pos (by simpa using hother), Association.get?_cons, ← erase, ih,
          Association.get?_cons]
        by_cases hkey : name = key
        · rw [if_pos hkey, if_neg (fun heq => hother (heq.trans hkey.symm)),
            if_pos hkey]
        · rw [if_neg hkey, if_neg hkey]

/-! ## Places -/

/-- What is seen at a place. -/
inductive Face where
  | table
  | leaf (value : Value)

namespace Value

def face : Value → Face
  | .table _ => .table
  | value => .leaf value

/-- The setting at a place. -/
def at? : List String → Value → Option Value
  | [], value => some value
  | key :: keys, value => (Association.get? key value.entries).bind (at? keys)

def face? (keys : List String) (value : Value) : Option Face :=
  (value.at? keys).map face

@[simp] theorem at?_nil (value : Value) : value.at? [] = some value := rfl

@[simp] theorem at?_cons (key : String) (keys : List String) (value : Value) :
    value.at? (key :: keys) = (Association.get? key value.entries).bind (at? keys) := rfl

theorem at?_append (keys more : List String) (value : Value) :
    value.at? (keys ++ more) = (value.at? keys).bind (at? more) := by
  induction keys generalizing value with
  | nil => rfl
  | cons key keys ih =>
      rw [List.cons_append, at?_cons, at?_cons]
      cases Association.get? key value.entries with
      | none => rfl
      | some child => exact ih child

@[simp] theorem face?_nil (value : Value) : value.face? [] = some value.face := rfl

@[simp] theorem face?_cons (key : String) (keys : List String) (value : Value) :
    value.face? (key :: keys) =
      (Association.get? key value.entries).bind (face? keys) := by
  rw [face?, at?_cons]
  cases Association.get? key value.entries <;> rfl

@[simp] theorem face_table (entries : Entries) :
    (Value.table entries).face = .table := rfl

theorem face?_append (keys more : List String) (value : Value) :
    value.face? (keys ++ more) = (value.at? keys).bind (face? more) := by
  rw [face?, at?_append]
  cases value.at? keys <;> rfl

theorem face_eq_table_iff (value : Value) :
    value.face = .table ↔ value = .table value.entries := by
  cases value <;> simp [face, entries]

theorem face_eq_leaf_iff {value leaf : Value} :
    value.face = .leaf leaf ↔ value = leaf ∧ leaf.face ≠ .table := by
  constructor
  · intro hface
    cases value <;> cases hface <;> exact ⟨rfl, by simp [face]⟩
  · rintro ⟨rfl, hleaf⟩
    cases value <;> first | rfl | exact absurd rfl hleaf

theorem entries_eq_nil {value : Value} (hleaf : value.face ≠ .table) :
    value.entries = [] := by
  cases value <;> first | rfl | exact absurd rfl hleaf

theorem face?_eq_none_of_leaf {value : Value} (hleaf : value.face ≠ .table)
    (key : String) (keys : List String) : value.face? (key :: keys) = none := by
  rw [face?_cons, entries_eq_nil hleaf, Association.get?_nil, Option.bind_none]

/-! ## Distinct names -/

/-- A setting in which no table has a name twice, however deep it lies. -/
inductive Distinct : Value → Prop
  | intro {value : Value} (names : (value.entries.map Prod.fst).Nodup)
      (entries : ∀ entry ∈ value.entries, Distinct entry.2)
      (items : ∀ item ∈ value.items, Distinct item) : Distinct value

theorem Distinct.names {value : Value} (hvalue : value.Distinct) :
    (value.entries.map Prod.fst).Nodup := by
  cases hvalue with
  | intro hnames _ _ => exact hnames

theorem Distinct.of_mem {value : Value} (hvalue : value.Distinct)
    {entry : String × Value} (hentry : entry ∈ value.entries) :
    entry.2.Distinct := by
  cases hvalue with
  | intro _ hentries _ => exact hentries entry hentry

theorem Distinct.of_get? {value child : Value} (hvalue : value.Distinct)
    {key : String} (hget : Association.get? key value.entries = some child) :
    child.Distinct :=
  hvalue.of_mem (Association.mem_of_get? hget)

theorem distinct_table {entries : Entries}
    (hnames : (entries.map Prod.fst).Nodup)
    (hentries : ∀ entry ∈ entries, entry.2.Distinct) :
    (Value.table entries).Distinct :=
  .intro hnames hentries fun _ hitem => nomatch hitem

theorem distinct_list {items : List Value} (hitems : ∀ item ∈ items, item.Distinct) :
    (Value.list items).Distinct :=
  .intro List.nodup_nil (fun _ hentry => nomatch hentry) hitems

theorem distinct_leaf {value : Value} (hentries : value.entries = [])
    (hitems : value.items = []) : value.Distinct :=
  .intro (by simp [hentries]) (by simp [hentries]) (by simp [hitems])

theorem distinct_empty : (Value.table []).Distinct := distinct_leaf rfl rfl

/-! ## Writing under names -/

/-- What stands under a name after a setting is written there. -/
def writtenOver (child : Option Value) : Value → Value
  | .table incoming => mergeAll (child.getD (.table [])) incoming
  | value => value

theorem writtenOver_of_leaf {value : Value} (hleaf : value.face ≠ .table)
    (child : Option Value) : writtenOver child value = value := by
  cases value <;> first | rfl | exact absurd rfl hleaf

theorem mergeKey_eq (target : Value) (name : String) (value : Value) :
    target.mergeKey name value = .table (target.entries.put name
      (writtenOver (target.entries.get? name) value)) := by
  cases value <;> rfl

theorem mergeAll_cons (target : Value) (name : String) (value : Value)
    (rest : Entries) :
    target.mergeAll ((name, value) :: rest) =
      (target.mergeKey name value).mergeAll rest := by
  rw [mergeAll]

theorem distinct_mergeKey {target : Value} (htarget : target.Distinct)
    {name : String} {value : Value} (hvalue : ∀ child : Option Value,
      (∀ c ∈ child, c.Distinct) → (writtenOver child value).Distinct) :
    (target.mergeKey name value).Distinct := by
  rw [mergeKey_eq]
  refine distinct_table (Association.nodup_put htarget.names) fun entry hentry => ?_
  rcases Association.mem_put hentry with heq | hold
  · rw [heq]
    exact hvalue _ fun c hc => htarget.of_get? hc
  · exact htarget.of_mem hold

theorem distinct_mergeAll_of {incoming : Entries}
    (hincoming : ∀ entry ∈ incoming, ∀ child : Option Value,
      (∀ c ∈ child, c.Distinct) → (writtenOver child entry.2).Distinct)
    {target : Value} (htarget : target.Distinct) :
    (target.mergeAll incoming).Distinct := by
  induction incoming generalizing target with
  | nil => rwa [mergeAll]
  | cons entry rest ih =>
      obtain ⟨hfirst, hrest⟩ := List.forall_mem_cons.mp hincoming
      rw [mergeAll_cons]
      exact ih hrest (distinct_mergeKey htarget hfirst)

theorem distinct_writtenOver {value : Value} (hvalue : value.Distinct)
    (child : Option Value) (hchild : ∀ c ∈ child, c.Distinct) :
    (writtenOver child value).Distinct := by
  induction hvalue generalizing child with
  | @intro value hnames hentries hitems ih =>
      by_cases htable : value.face = .table
      · rw [value.face_eq_table_iff.mp htable, writtenOver]
        refine distinct_mergeAll_of ih ?_
        cases child with
        | none => exact distinct_empty
        | some c => exact hchild c rfl
      · rw [writtenOver_of_leaf htable]
        exact .intro hnames hentries hitems

theorem distinct_mergeAll {target : Value} (htarget : target.Distinct)
    {incoming : Entries} (hincoming : (Value.table incoming).Distinct) :
    (target.mergeAll incoming).Distinct :=
  distinct_mergeAll_of
    (fun _ hentry => distinct_writtenOver (hincoming.of_mem hentry)) htarget

/-! ## Agreement -/

/-- Two settings agree on which of the places that both show are tables. -/
def Agree (a b : Value) : Prop :=
  ∀ keys, ∀ f ∈ a.face? keys, ∀ g ∈ b.face? keys, f = .table ↔ g = .table

theorem Agree.symm {a b : Value} (hagree : Agree a b) : Agree b a :=
  fun keys f hf g hg => (hagree keys g hg f hf).symm

theorem Agree.child {a b x y : Value} (hagree : Agree a b) {key : String}
    (hx : Association.get? key a.entries = some x)
    (hy : Association.get? key b.entries = some y) : Agree x y := by
  intro keys f hf g hg
  refine hagree (key :: keys) f ?_ g ?_
  · rwa [face?_cons, hx]
  · rwa [face?_cons, hy]

theorem Agree.face_iff {a b : Value} (hagree : Agree a b) :
    a.face = .table ↔ b.face = .table :=
  hagree [] a.face rfl b.face rfl

/-! ## A test for agreement -/

def isTable : Value → Bool
  | .table _ => true
  | _ => false

theorem face_eq_table_iff_isTable (value : Value) :
    value.face = .table ↔ value.isTable = true := by
  cases value <;> simp [face, isTable]

mutual

/-- A test for agreement, entry by entry. -/
def agreeing : Value → Value → Bool
  | .table entries, other => other.isTable && entriesAgreeing entries other.entries
  | _, other => !other.isTable

def entriesAgreeing : List (String × Value) → List (String × Value) → Bool
  | [], _ => true
  | (name, value) :: rest, others =>
    (match Association.get? name others with
      | some other => agreeing value other
      | none => true) && entriesAgreeing rest others

end

theorem agreeing_of_mem {entries others : Entries}
    (hagreeing : entriesAgreeing entries others = true) {name : String}
    {value other : Value} (hvalue : (name, value) ∈ entries)
    (hother : Association.get? name others = some other) : agreeing value other = true := by
  induction entries with
  | nil => cases hvalue
  | cons entry rest ih =>
      obtain ⟨key, first⟩ := entry
      rw [entriesAgreeing, Bool.and_eq_true] at hagreeing
      rcases List.mem_cons.mp hvalue with heq | hrest
      · obtain ⟨rfl, rfl⟩ := Prod.mk.inj heq
        rw [hother] at hagreeing
        exact hagreeing.1
      · exact ih hagreeing.2 hrest

theorem agree_of_agreeing {a b : Value} (hagreeing : agreeing a b = true) :
    Agree a b := by
  intro keys
  induction keys generalizing a b with
  | nil =>
      intro f hf g hg
      obtain rfl := Option.some.inj hf
      obtain rfl := Option.some.inj hg
      rw [face_eq_table_iff_isTable, face_eq_table_iff_isTable]
      cases a <;> simp_all [agreeing, isTable]
  | cons key keys ih =>
      intro f hf g hg
      rw [face?_cons] at hf hg
      obtain ⟨x, hx, hfx⟩ := Option.bind_eq_some_iff.mp hf
      obtain ⟨y, hy, hgy⟩ := Option.bind_eq_some_iff.mp hg
      cases a with
      | table entries =>
          rw [agreeing, Bool.and_eq_true] at hagreeing
          have hmem := Association.mem_of_get? hx
          exact ih (agreeing_of_mem hagreeing.2 hmem hy) f hfx g hgy
      | _ => cases hx

/-! ## Writing seen from a place -/

/-- What is written is seen first, and what was there shows through elsewhere. -/
def ShowsThrough (value : Value) : Prop :=
  ∀ child : Option Value, (∀ c ∈ child, Agree c value) → ∀ keys,
    (writtenOver child value).face? keys =
      (value.face? keys).or (child.bind (face? keys))

theorem showsThrough_leaf {value : Value} (hleaf : value.face ≠ .table) :
    ShowsThrough value := by
  intro child hchild keys
  rw [writtenOver_of_leaf hleaf]
  cases keys with
  | nil => rfl
  | cons key keys =>
      rw [face?_eq_none_of_leaf hleaf, Option.none_or]
      cases child with
      | none => rfl
      | some c =>
          have hc : c.face ≠ .table := fun htable =>
            hleaf ((hchild c rfl).face_iff.mp htable)
          exact (face?_eq_none_of_leaf hc key keys).symm

theorem face?_mergeKey_of_ne {name key : String} (hne : name ≠ key)
    (target value : Value) (keys : List String) :
    (target.mergeKey name value).face? (key :: keys) =
      target.face? (key :: keys) := by
  rw [mergeKey_eq, face?_cons, face?_cons, entries, Association.get?_put, if_neg hne]

theorem face?_mergeKey_self {name : String} {target value : Value}
    (hvalue : ShowsThrough value)
    (hagree : ∀ c ∈ Association.get? name target.entries, Agree c value)
    (keys : List String) :
    (target.mergeKey name value).face? (name :: keys) =
      (value.face? keys).or (target.face? (name :: keys)) := by
  rw [mergeKey_eq, face?_cons, face?_cons, entries, Association.get?_put, if_pos rfl]
  exact hvalue _ hagree keys

theorem face?_eq_none_of_fresh {name : String} {rest : Entries}
    (hname : name ∉ rest.map Prod.fst) (keys : List String) :
    (Value.table rest).face? (name :: keys) = none := by
  rw [face?_cons, entries, Association.get?_eq_none hname, Option.bind_none]

/-- What comes behind a name agrees with a target that is only written to under that
name. -/
theorem agree_mergeKey {name : String} {value target : Value} {rest : Entries}
    (hname : name ∉ rest.map Prod.fst)
    (hagree : Agree target (.table ((name, value) :: rest))) :
    Agree (target.mergeKey name value) (.table rest) := by
  intro keys f hf g hg
  cases keys with
  | nil =>
      obtain rfl := Option.some.inj hf
      obtain rfl := Option.some.inj hg
      simp [mergeKey_eq]
  | cons key keys =>
      have hne : name ≠ key := by
        rintro rfl
        rw [face?_eq_none_of_fresh hname] at hg
        cases hg
      rw [face?_mergeKey_of_ne hne] at hf
      refine hagree (key :: keys) f hf g ?_
      rw [face?_cons, entries, Association.get?_cons, if_neg hne]
      rwa [face?_cons, entries] at hg

/-- Since no name comes twice, the later settings leave the first one alone. -/
theorem face?_mergeAll_of {incoming : Entries}
    (hnames : (incoming.map Prod.fst).Nodup)
    (hincoming : ∀ entry ∈ incoming, ShowsThrough entry.2) {target : Value}
    (htarget : target.face = .table) (hagree : Agree target (.table incoming))
    (keys : List String) :
    (target.mergeAll incoming).face? keys =
      ((Value.table incoming).face? keys).or (target.face? keys) := by
  induction incoming generalizing target with
  | nil =>
      rw [mergeAll]
      cases keys with
      | nil => simp [htarget]
      | cons key keys => simp [entries]
  | cons entry rest ih =>
      obtain ⟨name, value⟩ := entry
      obtain ⟨hname, hrest⟩ := List.nodup_cons.mp hnames
      obtain ⟨hvalue, hothers⟩ := List.forall_mem_cons.mp hincoming
      have hmerged : (target.mergeKey name value).face = .table := by
        rw [mergeKey_eq, face]
      rw [mergeAll_cons, ih hrest hothers hmerged (agree_mergeKey hname hagree)]
      cases keys with
      | nil => simp [htarget]
      | cons key keys =>
          by_cases hkey : name = key
          · subst hkey
            rw [face?_eq_none_of_fresh hname, Option.none_or,
              face?_mergeKey_self hvalue fun c hc => hagree.child hc (by simp [entries])]
            simp [entries]
          · rw [face?_mergeKey_of_ne hkey]
            simp [entries, hkey]

theorem agree_empty (entries : Entries) : Agree (.table []) (.table entries) := by
  intro keys f hf g hg
  cases keys with
  | nil =>
      obtain rfl := Option.some.inj hf
      obtain rfl := Option.some.inj hg
      simp
  | cons key keys => cases hf

theorem Distinct.showsThrough {value : Value} (hvalue : value.Distinct) :
    ShowsThrough value := by
  induction hvalue with
  | @intro value hnames hentries hitems ih =>
      by_cases htable : value.face = .table
      · rw [value.face_eq_table_iff.mp htable]
        intro child hchild keys
        rw [writtenOver]
        cases child with
        | none =>
            rw [Option.getD_none, face?_mergeAll_of hnames ih rfl (agree_empty _)]
            cases keys <;> simp [entries]
        | some c =>
            have hagree := hchild c rfl
            exact face?_mergeAll_of hnames ih (hagree.face_iff.mpr rfl) hagree keys
      · exact showsThrough_leaf htable

/-- A table of distinct names that is written over another one is seen first, and
the other one shows through elsewhere. -/
theorem face?_mergeAll {target : Value} {incoming : Entries}
    (hincoming : (Value.table incoming).Distinct) (htarget : target.face = .table)
    (hagree : Agree target (.table incoming)) (keys : List String) :
    (target.mergeAll incoming).face? keys =
      ((Value.table incoming).face? keys).or (target.face? keys) :=
  face?_mergeAll_of hincoming.names
    (fun _ hentry => (hincoming.of_mem hentry).showsThrough) htarget hagree keys

theorem face_mergeAll {target : Value} (htarget : target.face = .table)
    (incoming : Entries) : (target.mergeAll incoming).face = .table := by
  induction incoming generalizing target with
  | nil => rwa [mergeAll]
  | cons entry rest ih =>
      rw [mergeAll_cons]
      exact ih (by rw [mergeKey_eq, face_table])

end Value
end FogDispatch.Settings
