import FogDispatch.Number.Rational
import FogDispatch.Proofs.AnswerText

/-!
# The grammar of answers

An answer is read if and only if its text, without the blanks around it, is put
together of a time, a load and one or more numbers with the marks between them.
The marks tell the fields apart, so nothing of the action is lost, and a list of
numbers that is written out behind a time and a load is read back.  Any other
text is refused as it came.
-/

namespace FogDispatch

/-! ## Cutting and putting together -/

section

variable {γ : Type} [DecidableEq γ] {mark : γ}

theorem splitFirst?_eq_some_iff {cs before after : List γ} :
    splitFirst? mark cs = some (before, after) ↔
      cs = before ++ mark :: after ∧ mark ∉ before := by
  constructor
  · intro hsplit
    exact ⟨eq_append_of_splitFirst? hsplit, not_mem_of_splitFirst? hsplit⟩
  · rintro ⟨rfl, hbefore⟩
    exact splitFirst?_append after hbefore

theorem intercalate_splitAll (mark : γ) (cs : List γ) :
    [mark].intercalate (splitAll mark cs) = cs := by
  induction cs with
  | nil => rfl
  | cons c rest ih =>
      by_cases hc : c = mark
      · cases hsplit : splitAll mark rest with
        | nil => exact (splitAll_ne_nil mark rest hsplit).elim
        | cons piece pieces =>
            rw [splitAll, if_pos hc, hsplit, List.intercalate_cons_cons,
              ← hsplit, ih, hc]
            rfl
      · obtain ⟨piece, pieces, hrest, hcons⟩ := splitAll_cons_ne hc rest
        rw [hrest] at ih
        rw [hcons]
        cases pieces with
        | nil =>
            rw [List.intercalate_singleton] at ih ⊢
            rw [ih]
        | cons next pieces =>
            rw [List.intercalate_cons_cons] at ih ⊢
            rw [List.cons_append, List.cons_append, ih]

end

/-! ## Numbers written in decimal -/

namespace Whole

theorem digitValue?_of_isDigit {c : Char} (hc : c.isDigit = true) :
    digitValue? c = some (c.toNat - '0'.toNat) := by
  rw [Char.isDigit, Bool.and_eq_true, decide_eq_true_eq, decide_eq_true_eq]
    at hc
  rw [digitValue?, if_pos]
  exact hc

theorem le_ofDigitChars (digits : List Char) (value : Nat) :
    value ≤ Nat.ofDigitChars 10 digits value := by
  have hpower : 0 < 10 ^ digits.length := Nat.pow_pos (by decide)
  rw [Nat.ofDigitChars_eq_ofDigitChars_zero]
  exact Nat.le_add_right_of_le (Nat.le_mul_of_pos_left value hpower)

/-- Digits are read as the number that they spell, up to the limit. -/
theorem readDigits_of_digits {limit : Nat} (beyond : NumberFault)
    {digits : List Char} (hdigits : ∀ c ∈ digits, c.isDigit = true)
    {value : Nat} (hlimit : Nat.ofDigitChars 10 digits value ≤ limit) :
    readDigits limit beyond value digits =
      .ok (Nat.ofDigitChars 10 digits value) := by
  induction digits generalizing value with
  | nil => rw [readDigits, Nat.ofDigitChars_nil]
  | cons c rest ih =>
      obtain ⟨hc, hrest⟩ := List.forall_mem_cons.mp hdigits
      rw [Nat.ofDigitChars_cons] at hlimit ⊢
      have hnext : 10 * value + (c.toNat - '0'.toNat) ≤ limit :=
        (le_ofDigitChars rest _).trans hlimit
      rw [readDigits, digitValue?_of_isDigit hc]
      dsimp only
      rw [if_pos hnext]
      exact ih hrest hlimit

theorem isDigit_of_mem_toDigits {n : Nat} {c : Char}
    (hc : c ∈ Nat.toDigits 10 n) : c.isDigit = true :=
  Nat.isDigit_of_mem_toDigits (by decide) (by decide) hc

theorem readDigits_toDigits {limit n : Nat} (beyond : NumberFault)
    (hlimit : n ≤ limit) :
    readDigits limit beyond 0 (Nat.toDigits 10 n) = .ok n := by
  rw [readDigits_of_digits beyond fun _ => isDigit_of_mem_toDigits] <;>
    rw [Nat.ofDigitChars_ten_toDigits]
  exact hlimit

theorem readInt_toDigits {n : Nat} (hlimit : n ≤ maxSigned) :
    readInt (Nat.toDigits 10 n) = .ok (n : Int) := by
  have hunsigned : ∀ {sign : Char} {rest : List Char},
      Nat.toDigits 10 n = sign :: rest → sign.isDigit = true := by
    intro sign rest hdigits
    exact isDigit_of_mem_toDigits (hdigits ▸ List.mem_cons_self)
  unfold readInt
  split
  next hnone => exact (Nat.toDigits_ne_nil hnone).elim
  next hplus => exact absurd (hunsigned hplus) (by decide)
  next hminus => exact absurd (hunsigned hminus) (by decide)
  next hminus => exact absurd (hunsigned hminus) (by decide)
  next hplus => exact absurd (hunsigned hplus) (by decide)
  next =>
    rw [readDigits_toDigits .tooLarge hlimit]
    rfl

theorem readInt_minus_toDigits {n : Nat} (hlimit : n ≤ maxSigned + 1) :
    readInt ('-' :: Nat.toDigits 10 n) = .ok (-(n : Int)) := by
  cases hdigits : Nat.toDigits 10 n with
  | nil => exact (Nat.toDigits_ne_nil hdigits).elim
  | cons c rest =>
      rw [readInt, ← hdigits, readDigits_toDigits .tooSmall hlimit]
      · rfl
      · exact List.cons_ne_nil c rest

/-- A number of 64 bits that is written in decimal is read back. -/
theorem readInt_toString {n : Int} (hlow : -2 ^ 63 ≤ n) (hhigh : n < 2 ^ 63) :
    readInt (toString n).toList = .ok n := by
  have hmax : maxSigned = 2 ^ 63 - 1 := rfl
  cases n with
  | ofNat m =>
      have hlimit : m ≤ maxSigned := by
        rw [Int.ofNat_eq_natCast] at hhigh
        omega
      rw [Int.toString_eq_repr, Int.repr, Nat.toList_repr]
      exact readInt_toDigits hlimit
  | negSucc m =>
      have hlimit : m + 1 ≤ maxSigned + 1 := by
        rw [Int.negSucc_eq] at hlow
        omega
      rw [Int.toString_eq_repr, Int.repr, String.toList_append,
        Nat.toList_repr]
      exact readInt_minus_toDigits hlimit

end Whole

namespace Answer

/-! ## The grammar -/

/-- The texts of the fields of an answer. -/
structure Fields where
  time : List Char
  cpu : List Char
  action : List (List Char)

namespace Fields

/-- The fields put together, `time,cpu d a0,a1,…` without the gaps. -/
def text (fields : Fields) : List Char :=
  fields.time ++ ',' :: (fields.cpu ++ 'd' :: [','].intercalate fields.action)

/-- The first marks in the text are those between the fields, and there is an
action. -/
structure Separate (fields : Fields) : Prop where
  comma_time : ',' ∉ fields.time
  mark_time : 'd' ∉ fields.time
  mark_cpu : 'd' ∉ fields.cpu
  action_ne : fields.action ≠ []

/-- The fields are numbers, up to the blanks around them. -/
structure Values (fields : Fields) (time cpu : Literal) (action : List Int) :
    Prop where
  time_eq : Literal.read (trimBlanks fields.time) = .ok time
  cpu_eq : Literal.read (trimBlanks fields.cpu) = .ok cpu
  action_eq : List.Forall₂
    (fun field n => Whole.readInt (trimBlanks field) = .ok n)
    fields.action action

end Fields

/-- A text, without the blanks around it, is in the grammar of answers and has
these numbers. -/
def Spells (cs : List Char) (time cpu : Literal) (action : List Int) : Prop :=
  ∃ fields : Fields, trimBlanks cs = fields.text ∧ fields.Separate ∧
    fields.Values time cpu action

theorem readField_eq_ok_iff {β : Type}
    {read : List Char → Except NumberFault β} {field : List Char} {value : β} :
    readField read field = .ok value ↔ read (trimBlanks field) = .ok value := by
  unfold readField
  dsimp only
  cases read (trimBlanks field) <;> simp

variable {α : Type} [Arith α]

theorem Fields.Values.mapM_eq {fields : Fields} {time cpu : Literal}
    {action : List Int} (hvalues : fields.Values time cpu action) :
    fields.action.mapM (readField Whole.readInt) = .ok action := by
  rw [mapM_eq_ok_iff]
  exact hvalues.action_eq.imp fun _ _ => readField_eq_ok_iff.mpr

theorem Fields.Values.comma_action {fields : Fields} {time cpu : Literal}
    {action : List Int} (hvalues : fields.Values time cpu action) :
    ∀ field ∈ fields.action, ',' ∉ field := by
  intro field hfield hcomma
  obtain ⟨n, hread⟩ := mapM_ok hvalues.mapM_eq field hfield
  exact absurd (of_mem_readField hread hcomma) (by decide)

theorem spells_of_readChars {model : CostModel α} {cs : List Char}
    {answer : Answer α} (hread : readChars model cs = .ok answer) :
    ∃ time cpu, Spells cs time cpu answer.action ∧
      answer = ⟨model.simulated (Arith.ofLiteral time), Arith.ofLiteral cpu,
        answer.action⟩ := by
  unfold readChars at hread
  split at hread
  next => exact nomatch hread
  next measured action hmark =>
    split at hread
    next => exact nomatch hread
    next timeText cpuText hcomma =>
      obtain ⟨time, htime, hread⟩ := bind_ok hread
      obtain ⟨cpu, hcpu, hread⟩ := bind_ok hread
      obtain ⟨numbers, haction, hread⟩ := bind_ok hread
      cases hread
      obtain ⟨htext, hmarks⟩ := splitFirst?_eq_some_iff.mp hmark
      obtain ⟨rfl, hcommas⟩ := splitFirst?_eq_some_iff.mp hcomma
      rw [List.mem_append, List.mem_cons] at hmarks
      push Not at hmarks
      refine ⟨time, cpu, ⟨⟨timeText, cpuText, splitAll ',' action⟩,
        ?text, ?separate, ?numbers⟩, rfl⟩
      case text =>
        rw [htext, Fields.text, intercalate_splitAll, List.append_assoc]
        rfl
      case separate =>
        exact ⟨hcommas, hmarks.1, hmarks.2.2, splitAll_ne_nil ',' action⟩
      case numbers =>
        refine ⟨readField_eq_ok_iff.mp htime, readField_eq_ok_iff.mp hcpu, ?_⟩
        exact (mapM_eq_ok_iff.mp haction).imp fun _ _ =>
          readField_eq_ok_iff.mp

theorem readChars_of_spells (model : CostModel α) {cs : List Char}
    {time cpu : Literal} {action : List Int}
    (hspells : Spells cs time cpu action) :
    readChars model cs = .ok ⟨model.simulated (Arith.ofLiteral time),
      Arith.ofLiteral cpu, action⟩ := by
  obtain ⟨fields, htext, hseparate, hvalues⟩ := hspells
  have hmark : splitFirst? 'd' (trimBlanks cs) =
      some (fields.time ++ ',' :: fields.cpu,
        [','].intercalate fields.action) := by
    rw [splitFirst?_eq_some_iff, htext, Fields.text, List.append_assoc]
    refine ⟨rfl, ?_⟩
    simp [hseparate.mark_time, hseparate.mark_cpu]
  have hcomma : splitFirst? ',' (fields.time ++ ',' :: fields.cpu) =
      some (fields.time, fields.cpu) :=
    splitFirst?_append fields.cpu hseparate.comma_time
  have hpieces : splitAll ',' ([','].intercalate fields.action) =
      fields.action :=
    splitAll_intercalate hseparate.action_ne hvalues.comma_action
  unfold readChars
  rw [hmark]
  dsimp only
  rw [hcomma]
  dsimp only
  rw [hpieces, readField_eq_ok_iff.mpr hvalues.time_eq,
    readField_eq_ok_iff.mpr hvalues.cpu_eq, hvalues.mapM_eq]
  rfl

/-! ## Written answers -/

theorem trimBlanks_dropWhile (cs : List Char) :
    trimBlanks (cs.dropWhile isBlank) = trimBlanks cs := by
  rw [trimBlanks, List.dropWhile_idempotent, trimBlanks]

theorem trimBlanks_blanks_append {blanks : List Char}
    (hblanks : ∀ c ∈ blanks, isBlank c = true) (cs : List Char) :
    trimBlanks (blanks ++ cs) = trimBlanks cs := by
  rw [trimBlanks, List.dropWhile_append_of_pos hblanks, trimBlanks]

theorem trimBlanks_of_not_blank {cs : List Char}
    (hcs : ∀ c ∈ cs, isBlank c = false) : trimBlanks cs = cs := by
  have hnone : ∀ {ds : List Char}, (∀ c ∈ ds, isBlank c = false) →
      ds.dropWhile isBlank = ds := by
    intro ds hds
    cases ds with
    | nil => rfl
    | cons c rest => simp [hds c List.mem_cons_self]
  have hreverse : ∀ c ∈ cs.reverse, isBlank c = false := by simpa using hcs
  rw [trimBlanks, hnone hcs, hnone hreverse, List.reverse_reverse]

theorem measuredOf?_of_values {fields : Fields} {time cpu : Literal}
    {action : List Int} (hseparate : fields.Separate)
    (hvalues : fields.Values time cpu action) :
    measuredOf? (fields.time ++ ',' :: fields.cpu) = some (time, cpu) := by
  have hcomma : ',' ∉ fields.time.dropWhile isBlank := fun hmem =>
    hseparate.comma_time ((List.dropWhile_sublist isBlank).mem hmem)
  have htime : readField Literal.read (fields.time.dropWhile isBlank) =
      .ok time := by
    rw [readField_eq_ok_iff, trimBlanks_dropWhile]
    exact hvalues.time_eq
  rw [measuredOf?, dropWhile_append_cons (by decide),
    splitFirst?_append fields.cpu hcomma, Option.bind_some]
  dsimp only
  rw [htime, readField_eq_ok_iff.mpr hvalues.cpu_eq]
  rfl

theorem actionOf?_of_values {fields : Fields} {time cpu : Literal}
    {action : List Int} (hseparate : fields.Separate)
    (hvalues : fields.Values time cpu action) :
    actionOf? ([','].intercalate fields.action) = some action := by
  rw [actionOf?, splitAll_intercalate hseparate.action_ne hvalues.comma_action,
    hvalues.mapM_eq]
  rfl

/-- Blanks around fields do not matter, not even those around the whole. -/
theorem readChars_text (model : CostModel α) {fields : Fields}
    {time cpu : Literal} {action : List Int} (hseparate : fields.Separate)
    (hvalues : fields.Values time cpu action) :
    readChars model fields.text = .ok ⟨model.simulated (Arith.ofLiteral time),
      Arith.ofLiteral cpu, action⟩ := by
  have hmark : 'd' ∉ fields.time ++ ',' :: fields.cpu := by
    simp [hseparate.mark_time, hseparate.mark_cpu]
  have htext : fields.text = (fields.time ++ ',' :: fields.cpu) ++
      'd' :: [','].intercalate fields.action := by
    rw [Fields.text, List.append_assoc]
    rfl
  have hread := readChars_toOption model hmark
    ([','].intercalate fields.action)
  rw [measuredOf?_of_values hseparate hvalues, actionOf?_of_values hseparate hvalues,
    ← htext] at hread
  cases hanswer : readChars model fields.text with
  | error fault =>
      rw [hanswer] at hread
      exact nomatch hread
  | ok answer =>
      rw [hanswer] at hread
      exact congrArg Except.ok (Option.some.inj hread)

/-- A number in decimal with blanks around it. -/
def Padded (field : List Char) (n : Int) : Prop :=
  ∃ before after, (∀ c ∈ before, isBlank c = true) ∧
    (∀ c ∈ after, isBlank c = true) ∧
    field = before ++ (toString n).toList ++ after

theorem isBlank_of_isDigit {c : Char} (hc : isDigit c = true) :
    isBlank c = false := by
  have hrange : 48 ≤ c.toNat ∧ c.toNat ≤ 57 := by
    unfold isDigit digitValue? at hc
    split at hc
    next h => exact h
    next => exact nomatch hc
  simp only [isBlank, Bool.or_eq_false_iff, Bool.and_eq_false_iff,
    decide_eq_false_iff_not, beq_eq_false_iff_ne]
  omega

theorem readInt_of_padded {field : List Char} {n : Int64}
    (hpadded : Padded field n.toInt) :
    Whole.readInt (trimBlanks field) = .ok n.toInt := by
  obtain ⟨before, after, hbefore, hafter, rfl⟩ := hpadded
  have hread : Whole.readInt (toString n.toInt).toList = .ok n.toInt :=
    Whole.readInt_toString n.le_toInt n.toInt_lt
  have hplain : ∀ c ∈ (toString n.toInt).toList, isBlank c = false := by
    intro c hc
    rcases Whole.readInt_ok hread c hc with rfl | rfl | hdigit
    · decide
    · decide
    · exact isBlank_of_isDigit hdigit
  rw [trimBlanks_append_blanks _ hafter, trimBlanks_blanks_append hbefore,
    trimBlanks_of_not_blank hplain]
  exact hread

/-- The fields are a readable time, a readable load and numbers of 64 bits in
decimal, with blanks around them. -/
structure Fields.Writes (fields : Fields) (time cpu : Literal)
    (numbers : List Int64) : Prop where
  time_eq : Literal.read (trimBlanks fields.time) = .ok time
  cpu_eq : Literal.read (trimBlanks fields.cpu) = .ok cpu
  action_eq : List.Forall₂ Padded fields.action (numbers.map Int64.toInt)

theorem Fields.Writes.values {fields : Fields} {time cpu : Literal}
    {numbers : List Int64} (hwrites : fields.Writes time cpu numbers) :
    fields.Values time cpu (numbers.map Int64.toInt) := by
  have haction := hwrites.action_eq
  refine ⟨hwrites.time_eq, hwrites.cpu_eq, ?_⟩
  rw [List.forall₂_map_right_iff] at haction ⊢
  exact haction.imp fun _ _ => readInt_of_padded

/-! ## Reading answers -/

theorem read_eq_ok_iff {model : CostModel α} {raw : String}
    {answer : Answer α} :
    read model raw = .ok answer ↔ readChars model raw.toList = .ok answer := by
  unfold read
  cases readChars model raw.toList <;> simp

theorem read_refused {model : CostModel α} {raw : String}
    (hrefused : ∀ answer, read model raw ≠ .ok answer) :
    ∃ fault, read model raw = .error (.answer raw fault) := by
  cases hread : readChars model raw.toList with
  | error fault => exact ⟨fault, by rw [read, hread]⟩
  | ok answer => exact (hrefused answer (read_eq_ok_iff.mpr hread)).elim

/-- An answer is read exactly if its text is in the grammar, and then its parts
are the numbers of the text; any other text is refused and told unchanged.  A
list of numbers written behind a time and a load is read back, however many
blanks are around the fields. -/
theorem read_iff_spells (model : CostModel α) :
    (∀ (raw : String) (answer : Answer α), read model raw = .ok answer ↔
      ∃ time cpu, Spells raw.toList time cpu answer.action ∧
        answer.cpuPercent = Arith.ofLiteral cpu ∧
        answer.cost = if model.charge then
          ⟨Arith.ofLiteral time * model.realMips / model.simulatedMips⟩
          else Span.zero) ∧
    (∀ raw : String,
      (∀ time cpu action, ¬ Spells raw.toList time cpu action) →
        ∃ fault, read model raw = .error (.answer raw fault)) ∧
    (∀ (fields : Fields) (time cpu : Literal) (numbers : List Int64),
      fields.Separate → fields.Writes time cpu numbers →
        read model (String.ofList fields.text) =
          .ok ⟨model.simulated (Arith.ofLiteral time), Arith.ofLiteral cpu,
            numbers.map Int64.toInt⟩) := by
  refine ⟨?reads, ?refuses, ?written⟩
  case reads =>
    intro raw answer
    rw [read_eq_ok_iff]
    constructor
    · intro hread
      obtain ⟨time, cpu, hspells, hparts⟩ := spells_of_readChars hread
      rw [hparts]
      exact ⟨time, cpu, hspells, rfl, rfl⟩
    · rintro ⟨time, cpu, hspells, hcpu, hcost⟩
      obtain ⟨cost, load, action⟩ := answer
      dsimp only at hspells hcpu hcost
      rw [readChars_of_spells model hspells, hcpu, hcost]
      rfl
  case refuses =>
    intro raw hnone
    apply read_refused
    intro answer hread
    obtain ⟨time, cpu, hspells, -⟩ :=
      spells_of_readChars (read_eq_ok_iff.mp hread)
    exact hnone time cpu answer.action hspells
  case written =>
    intro fields time cpu numbers hseparate hwrites
    rw [read_eq_ok_iff, String.toList_ofList]
    exact readChars_text model hseparate hwrites.values

/-- Blanks of several kinds stand around a time, a load and two numbers. -/
theorem padded_answer_read :
    read (⟨8710, 5320, true⟩ : CostModel ℚ)
        " 12.5\t,40 d2,\u3000-9223372036854775808 \n" =
      .ok ⟨⟨12.5 * 8710 / 5320⟩, 40, [2, -9223372036854775808]⟩ := by
  have hread := (read_iff_spells (⟨8710, 5320, true⟩ : CostModel ℚ)).2.2
    ⟨" 12.5\t".toList, "40 ".toList,
      ["2".toList, "\u3000-9223372036854775808 \n".toList]⟩
    (.finite false 125 (-1)) (.finite false 40 0) [2, Int64.minValue]
    ⟨by decide, by decide, by decide, by decide⟩
    ⟨by decide, by decide,
      .cons ⟨[], [], by simp, by simp, by decide⟩
        (.cons ⟨['\u3000'], [' ', '\n'], List.all_eq_true.mp rfl,
          List.all_eq_true.mp rfl, by decide⟩ .nil)⟩
  have htime : (Arith.ofLiteral (.finite false 125 (-1)) : ℚ) = 12.5 := by
    norm_num [Arith.ofLiteral, Literal.exact]
  have hload : (Arith.ofLiteral (.finite false 40 0) : ℚ) = 40 := by
    norm_num [Arith.ofLiteral, Literal.exact]
  rw [htime, hload] at hread
  exact hread

end Answer
end FogDispatch
