import FogDispatch.Proofs.NumberTexts
import FogDispatch.Wire

/-!
# Texts of documents

A document has no line end in its text, whatever strings and numbers it holds.  A
document whose numbers are finite can be told from its text even if more text comes
behind it, as long as that does not go on with a character of numbers: a string ends
at its quote, a list and a record at their brackets, and a number where its
characters end.
-/

namespace FogDispatch.Wire

open Literal

/-! ## No line ends -/

theorem not_mem_escape (c : Char) : '\n' ∉ escape c := by
  have hdigit : ∀ n : Fin 16, '\n' ≠ hexDigit 'a' n := by decide
  unfold escape
  split_ifs with hquote hbackslash hline hreturn htab hback hfeed hcontrol
  any_goals decide
  · have hhigh := hdigit ⟨c.toNat / 16, by omega⟩
    have hlow := hdigit ⟨c.toNat % 16, Nat.mod_lt _ (by decide)⟩
    simpa using ⟨hhigh, hlow⟩
  · simpa using fun heq => hline heq.symm

theorem not_mem_quoted (cs : List Char) : '\n' ∉ quoted cs := by
  simp [quoted, not_mem_escape]

theorem separated_cons (item : List Char) (rest : List (List Char)) :
    separated (item :: rest) = item ++ rest.flatMap (',' :: ·) := by
  induction rest generalizing item with
  | nil => simp [separated]
  | cons next rest ih =>
      rw [separated, ih, List.flatMap_cons, List.cons_append]
      exact List.cons_ne_nil next rest

theorem not_mem_separated {texts : List (List Char)}
    (htexts : ∀ text ∈ texts, '\n' ∉ text) : '\n' ∉ separated texts := by
  cases texts with
  | nil => simp [separated]
  | cons text rest =>
      obtain ⟨htext, hrest⟩ := List.forall_mem_cons.mp htexts
      rw [separated_cons, List.mem_append, List.mem_flatMap]
      rintro (hfirst | ⟨next, hnext, hline⟩)
      · exact htext hfirst
      · exact hrest next hnext
          ((List.mem_cons.mp hline).resolve_left (by decide))

theorem itemChars_eq (items : List Document) :
    itemChars items = items.map Document.chars := by
  induction items with
  | nil => rfl
  | cons item rest ih => rw [itemChars, ih, List.map_cons]

/-- The text of a field: its name, a colon and its value. -/
def fieldText (field : String × Document) : List Char :=
  quoted field.1.toList ++ ':' :: field.2.chars

theorem fieldChars_eq (fields : List (String × Document)) :
    fieldChars fields = fields.map fieldText := by
  induction fields with
  | nil => rfl
  | cons field rest ih =>
      obtain ⟨name, value⟩ := field
      rw [fieldChars, ih, List.map_cons, fieldText]

theorem not_mem_wire (a : Binary64) : '\n' ∉ (RealStyle.wire.write a).toList := by
  by_cases hfinite : a.isFinite = true
  · rw [RealStyle.write_wire hfinite, List.mem_append]
    obtain ⟨htext, _⟩ :=
      RealStyle.writeMagnitude_wire a.decode_canonical.lt a.decode.2.2
    rintro (hsign | hline)
    · split at hsign <;> simp at hsign
    · exact absurd (htext.numeric _ hline) (by decide)
  · have hnone : RealStyle.wire.write a = "null" := by
      unfold RealStyle.write
      rw [Binary64.isFinite] at hfinite
      split_ifs with hundefined hinfinite
      all_goals first | rfl | simp_all
    rw [hnone]
    decide

/-- A document is written on one line. -/
theorem Document.not_mem_chars (document : Document) : '\n' ∉ document.chars := by
  cases document with
  | natural n =>
      intro hline
      exact absurd (isDigit_of_mem_digitChars (n := n) hline) (by decide)
  | real a => exact not_mem_wire a
  | flag b => cases b <;> decide
  | string s => exact not_mem_quoted s.toList
  | list items =>
      have hitems : '\n' ∉ separated (itemChars items) := by
        rw [itemChars_eq]
        refine not_mem_separated (List.forall_mem_map.mpr fun item hitem => ?_)
        have := List.sizeOf_lt_of_mem hitem
        exact item.not_mem_chars
      simpa [chars] using hitems
  | record fields =>
      have hfields : '\n' ∉ separated (fieldChars fields) := by
        rw [fieldChars_eq]
        refine not_mem_separated (List.forall_mem_map.mpr fun field hfield => ?_)
        have hvalue : '\n' ∉ field.2.chars := by
          have := List.sizeOf_lt_of_mem hfield
          obtain ⟨name, value⟩ := field
          exact value.not_mem_chars
        simpa [fieldText, not_mem_quoted] using hvalue
      simpa [chars] using hfields
termination_by sizeOf document
decreasing_by
  all_goals
    simp_wf
    simp_all
    omega

/-! ## Strings end at their quotes -/

def shortEscape? (c : Char) : Option Char :=
  if c = '"' then some '"'
  else if c = '\\' then some '\\'
  else if c = 'n' then some '\n'
  else if c = 'r' then some '\r'
  else if c = 't' then some '\t'
  else if c = 'b' then some (Char.ofNat 8)
  else if c = 'f' then some (Char.ofNat 12)
  else none

/-- The first character of an escaped text and what comes behind it; none at a
quote. -/
def unescape? : List Char → Option (Char × List Char)
  | [] => none
  | '"' :: _ => none
  | '\\' :: 'u' :: '0' :: '0' :: high :: low :: rest => do
    let high ← hexValue? high
    let low ← hexValue? low
    return (Char.ofNat (16 * high + low), rest)
  | '\\' :: c :: rest => (shortEscape? c).map (·, rest)
  | c :: rest => some (c, rest)

theorem unescape?_escape (c : Char) (rest : List Char) :
    unescape? (escape c ++ rest) = some (c, rest) := by
  unfold escape
  split_ifs with hquote hbackslash hline hreturn htab hback hfeed hcontrol
  · rw [hquote]; rfl
  · rw [hbackslash]; rfl
  · rw [hline]; rfl
  · rw [hreturn]; rfl
  · rw [htab]; rfl
  · rw [← Char.ofNat_toNat c, hback]; rfl
  · rw [← Char.ofNat_toNat c, hfeed]; rfl
  · have hhigh := hexValue?_hexDigit_lower ⟨c.toNat / 16, by omega⟩
    have hlow := hexValue?_hexDigit_lower ⟨c.toNat % 16, Nat.mod_lt _ (by decide)⟩
    have hvalue : Char.ofNat (16 * (c.toNat / 16) + c.toNat % 16) = c := by
      rw [Nat.div_add_mod, Char.ofNat_toNat]
    simp [unescape?, hhigh, hlow, hvalue]
  · simp [unescape?, hbackslash]

theorem escaped_cancel {cs cs' r r' : List Char}
    (heq : cs.flatMap escape ++ '"' :: r = cs'.flatMap escape ++ '"' :: r') :
    cs = cs' ∧ r = r' := by
  have hread := congrArg unescape? heq
  induction cs generalizing cs' with
  | nil =>
      cases cs' with
      | nil => exact ⟨rfl, (List.cons.inj heq).2⟩
      | cons c' rest' =>
          rw [List.flatMap_cons, List.append_assoc, unescape?_escape] at hread
          cases hread
  | cons c rest ih =>
      rw [List.flatMap_cons, List.append_assoc, unescape?_escape] at hread
      cases cs' with
      | nil => cases hread
      | cons c' rest' =>
          rw [List.flatMap_cons, List.append_assoc, unescape?_escape] at hread
          obtain ⟨rfl, hrest⟩ := Prod.mk.inj (Option.some.inj hread)
          obtain ⟨rfl, rfl⟩ := ih hrest (congrArg unescape? hrest)
          exact ⟨rfl, rfl⟩

theorem quoted_cancel {cs cs' r r' : List Char}
    (heq : quoted cs ++ r = quoted cs' ++ r') : cs = cs' ∧ r = r' := by
  rw [quoted, quoted, List.cons_append, List.cons_append, List.append_assoc,
    List.append_assoc] at heq
  exact escaped_cancel (List.cons.inj heq).2

/-! ## Numbers end where their characters end -/

theorem numeric_cancel {cs cs' r r' : List Char}
    (hcs : ∀ c ∈ cs, isNumeric c = true) (hcs' : ∀ c ∈ cs', isNumeric c = true)
    (hr : Stops isNumeric r) (hr' : Stops isNumeric r') (heq : cs ++ r = cs' ++ r') :
    cs = cs' ∧ r = r' := by
  have htoken : cs = cs' := by
    rw [← takeWhile_run hcs hr, heq, takeWhile_run hcs' hr']
  subst htoken
  exact ⟨rfl, List.append_cancel_left heq⟩

theorem digitChars_injective : Function.Injective Decimal.digitChars :=
  fun n m heq => by rw [← digitsValue_digitChars n, heq, digitsValue_digitChars]

theorem isNumeric_of_mem_wire {a : Binary64} (ha : a.isFinite = true) {c : Char}
    (hc : c ∈ (RealStyle.wire.write a).toList) : isNumeric c = true := by
  rw [RealStyle.write_wire ha, List.mem_append] at hc
  rcases hc with hsign | hmagnitude
  · split at hsign
    next =>
      obtain rfl := List.mem_singleton.mp hsign
      decide
    next => cases hsign
  · obtain ⟨htext, _⟩ :=
      RealStyle.writeMagnitude_wire a.decode_canonical.lt a.decode.2.2
    exact htext.numeric c hmagnitude

/-- A text of a binary number is never that of a natural one. -/
theorem digitChars_ne_wire {a : Binary64} (ha : a.isFinite = true) (n : Nat) :
    Decimal.digitChars n ≠ (RealStyle.wire.write a).toList := by
  intro heq
  obtain ⟨htext, _⟩ :=
    RealStyle.writeMagnitude_wire a.decode_canonical.lt a.decode.2.2
  obtain ⟨c, hc, hmark⟩ := htext.marked
  have hmem : c ∈ Decimal.digitChars n := by
    rw [heq, RealStyle.write_wire ha]
    exact List.mem_append_right _ hc
  rw [isDigit_of_mem_digitChars hmem] at hmark
  cases hmark

/-! ## The kinds of documents by their first characters -/

inductive Opening where
  | number
  | yes
  | no
  | string
  | list
  | record
  deriving DecidableEq

def openingOf (c : Char) : Option Opening :=
  if isDigit c || c == '-' then some .number
  else if c = 't' then some .yes
  else if c = 'f' then some .no
  else if c = '"' then some .string
  else if c = '[' then some .list
  else if c = '\x7b' then some .record
  else none

def Document.opening : Document → Opening
  | natural _ => .number
  | real _ => .number
  | flag b => if b then .yes else .no
  | string _ => .string
  | list _ => .list
  | record _ => .record

/-- A document all of whose binary numbers are finite. -/
inductive Document.Finite : Document → Prop
  | natural (n : Nat) : Finite (.natural n)
  | real {a : Binary64} (ha : a.isFinite = true) : Finite (.real a)
  | flag (b : Bool) : Finite (.flag b)
  | string (s : String) : Finite (.string s)
  | list {items : List Document} (hitems : ∀ item ∈ items, Finite item) :
      Finite (.list items)
  | record {fields : List (String × Document)}
      (hfields : ∀ field ∈ fields, Finite field.2) : Finite (.record fields)

theorem openingOf_digit {c : Char} (hc : isDigit c = true) :
    openingOf c = some .number := by
  simp [openingOf, hc]

theorem Document.Finite.opens {document : Document} (hfinite : document.Finite) :
    ∃ c cs, document.chars = c :: cs ∧ openingOf c = some document.opening := by
  cases hfinite with
  | natural n =>
      have hsome : Decimal.digitChars n ≠ [] :=
        List.ne_nil_of_length_pos Nat.length_toDigits_pos
      obtain ⟨c, cs, heq⟩ := List.exists_cons_of_ne_nil hsome
      exact ⟨c, cs, heq, openingOf_digit
        (isDigit_of_mem_digitChars (heq ▸ List.mem_cons_self))⟩
  | @real a ha =>
      obtain ⟨htext, _⟩ :=
        RealStyle.writeMagnitude_wire a.decode_canonical.lt a.decode.2.2
      obtain ⟨c, cs, heq, hc⟩ := htext.head
      rw [chars, RealStyle.write_wire ha, heq]
      cases a.isNegative with
      | false => exact ⟨c, cs, rfl, openingOf_digit hc⟩
      | true => exact ⟨'-', c :: cs, rfl, rfl⟩
  | flag b => cases b <;> exact ⟨_, _, rfl, rfl⟩
  | string s => exact ⟨_, _, rfl, rfl⟩
  | list hitems => exact ⟨_, _, by rw [chars], rfl⟩
  | record hfields => exact ⟨_, _, by rw [chars], rfl⟩

/-! ## Documents can be told from their texts -/

/-- A value can be told from its text among the good ones, if what comes behind the
text does not go on with a number. -/
def Cancels {β : Type} (text : β → List Char) (Good : β → Prop) (x : β) : Prop :=
  ∀ y, Good y → ∀ r r', Stops isNumeric r → Stops isNumeric r' →
    text x ++ r = text y ++ r' → x = y ∧ r = r'

section Members

variable {β : Type} {text : β → List Char} {Good : β → Prop} {close : Char}

theorem stops_members (hclose : isNumeric close = false) (xs : List β)
    (r : List Char) :
    Stops isNumeric (xs.flatMap (fun x => ',' :: text x) ++ close :: r) := by
  cases xs with
  | nil => exact stops_cons hclose r
  | cons x rest =>
      rw [List.flatMap_cons, List.cons_append, List.cons_append]
      exact stops_cons (by decide) _

/-- Members with a comma before each, up to the closing bracket. -/
theorem members_cancel (hclose : isNumeric close = false) (hcomma : close ≠ ',')
    {xs ys : List β} (hxs : ∀ x ∈ xs, Cancels text Good x)
    (hys : ∀ y ∈ ys, Good y) {r r' : List Char}
    (heq : xs.flatMap (fun x => ',' :: text x) ++ close :: r =
      ys.flatMap (fun y => ',' :: text y) ++ close :: r') :
    xs = ys ∧ r = r' := by
  induction xs generalizing ys with
  | nil =>
      cases ys with
      | nil => exact ⟨rfl, (List.cons.inj heq).2⟩
      | cons y ys => exact absurd (List.cons.inj heq).1 hcomma
  | cons x xs ih =>
      cases ys with
      | nil => exact absurd (List.cons.inj heq).1.symm hcomma
      | cons y ys =>
          obtain ⟨hx, hxs'⟩ := List.forall_mem_cons.mp hxs
          obtain ⟨hy, hys'⟩ := List.forall_mem_cons.mp hys
          simp only [List.flatMap_cons, List.cons_append, List.append_assoc,
            List.cons.injEq, true_and] at heq
          obtain ⟨rfl, hrest⟩ := hx y hy _ _ (stops_members hclose xs r)
            (stops_members hclose ys r') heq
          obtain ⟨rfl, rfl⟩ := ih hxs' hys' hrest
          exact ⟨rfl, rfl⟩

/-- A bracket closes a list of members where no member begins with it. -/
theorem separated_cancel (hclose : isNumeric close = false) (hcomma : close ≠ ',')
    (hopens : ∀ x, Good x → ∀ cs, text x ≠ close :: cs ∧ text x ≠ [])
    {xs ys : List β} (hxs : ∀ x ∈ xs, Good x ∧ Cancels text Good x)
    (hys : ∀ y ∈ ys, Good y) {r r' : List Char}
    (heq : separated (xs.map text) ++ close :: r =
      separated (ys.map text) ++ close :: r') : xs = ys ∧ r = r' := by
  have hfirst : ∀ x, Good x → ∀ cs cs', close :: cs ≠ text x ++ cs' := by
    intro x hx cs cs' hhead
    cases hx' : text x with
    | nil => exact (hopens x hx []).2 hx'
    | cons c rest =>
        rw [hx', List.cons_append] at hhead
        obtain ⟨rfl, _⟩ := List.cons.inj hhead
        exact (hopens x hx rest).1 hx'
  cases xs with
  | nil =>
      cases ys with
      | nil => exact ⟨rfl, (List.cons.inj heq).2⟩
      | cons y ys =>
          rw [List.map_cons, separated_cons, List.append_assoc] at heq
          exact absurd heq (hfirst y (hys y List.mem_cons_self) _ _)
  | cons x xs =>
      obtain ⟨⟨hx, hcancels⟩, hxs'⟩ := List.forall_mem_cons.mp hxs
      rw [List.map_cons, separated_cons, List.append_assoc, List.flatMap_map] at heq
      cases ys with
      | nil => exact absurd heq.symm (hfirst x hx _ _)
      | cons y ys =>
          obtain ⟨hy, hys'⟩ := List.forall_mem_cons.mp hys
          rw [List.map_cons, separated_cons, List.append_assoc,
            List.flatMap_map] at heq
          obtain ⟨rfl, hrest⟩ := hcancels y hy _ _ (stops_members hclose xs r)
            (stops_members hclose ys r') heq
          obtain ⟨rfl, rfl⟩ := members_cancel hclose hcomma
            (fun z hz => (hxs' z hz).2) hys' hrest
          exact ⟨rfl, rfl⟩

end Members

theorem fieldText_cancels {field : String × Document}
    (hvalue : Cancels Document.chars Document.Finite field.2) :
    Cancels fieldText (fun other => other.2.Finite) field := by
  obtain ⟨name, value⟩ := field
  rintro ⟨name', value'⟩ hfinite r r' hr hr' heq
  rw [fieldText, fieldText, List.append_assoc, List.append_assoc] at heq
  obtain ⟨hname, hrest⟩ := quoted_cancel heq
  obtain ⟨rfl, rfl⟩ := hvalue value' hfinite r r' hr hr' (List.cons.inj hrest).2
  exact ⟨congrArg (·, value) (String.toList_inj.mp hname), rfl⟩

theorem Document.Finite.opening_eq {document other : Document}
    (hfinite : document.Finite) (hother : other.Finite) {r r' : List Char}
    (heq : document.chars ++ r = other.chars ++ r') :
    document.opening = other.opening := by
  obtain ⟨c, cs, hchars, hc⟩ := hfinite.opens
  obtain ⟨c', cs', hchars', hc'⟩ := hother.opens
  rw [hchars, hchars'] at heq
  obtain ⟨rfl, _⟩ := List.cons.inj heq
  exact Option.some.inj (hc.symm.trans hc')

theorem Document.Finite.not_bracket {document : Document} {close : Char}
    (hfinite : document.Finite) (hclose : openingOf close = none) (cs : List Char) :
    document.chars ≠ close :: cs ∧ document.chars ≠ [] := by
  obtain ⟨c, rest, hchars, hc⟩ := hfinite.opens
  rw [hchars]
  refine ⟨fun heq => ?_, List.cons_ne_nil c rest⟩
  obtain ⟨rfl, _⟩ := List.cons.inj heq
  rw [hclose] at hc
  cases hc

theorem natural_cancels (n : Nat) :
    Cancels Document.chars Document.Finite (.natural n) := by
  intro other hother r r' hr hr' heq
  have hopening := Document.Finite.opening_eq (.natural n) hother heq
  have hdigits : ∀ m, ∀ c ∈ Decimal.digitChars m, isNumeric c = true :=
    fun m c hc => isNumeric_of_isDigit (isDigit_of_mem_digitChars hc)
  cases hother with
  | natural m =>
      obtain ⟨htext, rfl⟩ := numeric_cancel (hdigits n) (hdigits m) hr hr' heq
      exact ⟨congrArg Document.natural (digitChars_injective htext), rfl⟩
  | real ha =>
      obtain ⟨htext, _⟩ := numeric_cancel (hdigits n)
        (fun c => isNumeric_of_mem_wire ha) hr hr' heq
      exact absurd htext (digitChars_ne_wire ha n)
  | flag b => cases b <;> cases hopening
  | string | list | record => cases hopening

theorem real_cancels {a : Binary64} (ha : a.isFinite = true) :
    Cancels Document.chars Document.Finite (.real a) := by
  intro other hother r r' hr hr' heq
  have hopening := Document.Finite.opening_eq (.real ha) hother heq
  cases hother with
  | natural m =>
      obtain ⟨htext, _⟩ := numeric_cancel (fun c => isNumeric_of_mem_wire ha)
        (fun c hc => isNumeric_of_isDigit (isDigit_of_mem_digitChars hc))
        hr hr' heq
      exact absurd htext.symm (digitChars_ne_wire ha m)
  | real hb =>
      obtain ⟨htext, rfl⟩ := numeric_cancel (fun c => isNumeric_of_mem_wire ha)
        (fun c => isNumeric_of_mem_wire hb) hr hr' heq
      have hwrite := RealStyle.write_wire_injective ha hb
        (String.toList_inj.mp htext)
      exact ⟨congrArg Document.real hwrite, rfl⟩
  | flag b => cases b <;> cases hopening
  | string | list | record => cases hopening

/-- The other document is of the same kind because it begins with the same
character; members are compared one by one. -/
theorem Document.Finite.cancels {document : Document} (hfinite : document.Finite) :
    Cancels Document.chars Document.Finite document := by
  induction hfinite with
  | natural n => exact natural_cancels n
  | real ha => exact real_cancels ha
  | flag b =>
      intro other hother r r' hr hr' heq
      have hopening := Document.Finite.opening_eq (.flag b) hother heq
      cases hother with
      | flag b' =>
          cases b <;> cases b'
          any_goals cases hopening
          all_goals exact ⟨rfl, List.append_cancel_left heq⟩
      | natural | real | string | list | record => cases b <;> cases hopening
  | string s =>
      intro other hother r r' hr hr' heq
      have hopening := Document.Finite.opening_eq (.string s) hother heq
      cases hother with
      | string s' =>
          obtain ⟨hchars, rfl⟩ := quoted_cancel heq
          exact ⟨congrArg Document.string (String.toList_inj.mp hchars), rfl⟩
      | flag b => cases b <;> cases hopening
      | natural | real | list | record => cases hopening
  | list hitems ih =>
      intro other hother r r' hr hr' heq
      have hopening := Document.Finite.opening_eq (.list hitems) hother heq
      cases hother with
      | list hitems' =>
          simp only [chars, itemChars_eq, List.cons_append, List.append_assoc,
            List.nil_append, List.cons.injEq, true_and] at heq
          have hopens : ∀ item, Document.Finite item → ∀ cs,
              item.chars ≠ ']' :: cs ∧ item.chars ≠ [] :=
            fun item hitem => hitem.not_bracket (by decide)
          obtain ⟨rfl, rfl⟩ := separated_cancel (by decide) (by decide) hopens
            (fun item hitem => ⟨hitems item hitem, ih item hitem⟩) hitems' heq
          exact ⟨rfl, rfl⟩
      | flag b => cases b <;> cases hopening
      | natural | real | string | record => cases hopening
  | record hfields ih =>
      intro other hother r r' hr hr' heq
      have hopening := Document.Finite.opening_eq (.record hfields) hother heq
      cases hother with
      | record hfields' =>
          simp only [chars, fieldChars_eq, List.cons_append, List.append_assoc,
            List.nil_append, List.cons.injEq, true_and] at heq
          have hopens : ∀ field : String × Document, field.2.Finite → ∀ cs,
              fieldText field ≠ '}' :: cs ∧ fieldText field ≠ [] :=
            fun field _ cs => by simp [fieldText, quoted]
          obtain ⟨rfl, rfl⟩ := separated_cancel (by decide) (by decide) hopens
            (fun field hfield =>
              ⟨hfields field hfield, fieldText_cancels (ih field hfield)⟩)
            hfields' heq
          exact ⟨rfl, rfl⟩
      | flag b => cases b <;> cases hopening
      | natural | real | string | list => cases hopening

/-- Finite documents have texts of their own. -/
theorem Document.Finite.eq_of_chars_eq {document other : Document}
    (hfinite : document.Finite) (hother : other.Finite)
    (heq : document.chars = other.chars) : document = other := by
  exact (hfinite.cancels other hother [] [] stops_nil stops_nil (by rw [heq])).1

end FogDispatch.Wire
