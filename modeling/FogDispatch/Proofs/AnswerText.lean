import FogDispatch.Answer
import FogDispatch.Proofs.Outcomes
import Mathlib.Data.List.DropRight
import Mathlib.Tactic

/-!
# How answers are read

The three parts of an answer are read independently of each other.  Blanks at
the ends of the whole text do not matter to its parts, since the fields are
trimmed again.  A second separator ends up in the action, where no number has
it, so such an answer is not readable.
-/

namespace FogDispatch

/-! ## Runs of what passes a test -/

section

variable {γ : Type} {p : γ → Bool} {front rest : List γ}

/-- A list that does not go on with what passes a test. -/
def Stops (p : γ → Bool) (rest : List γ) : Prop := ∀ c ∈ rest.head?, p c = false

theorem stops_nil : Stops p [] := fun _ hc => nomatch hc

theorem stops_cons {c : γ} (hc : p c = false) (rest : List γ) : Stops p (c :: rest) := by
  intro d hd
  obtain rfl := Option.some.inj hd
  exact hc

theorem takeWhile_run (hfront : ∀ c ∈ front, p c = true) (hrest : Stops p rest) :
    (front ++ rest).takeWhile p = front := by
  rw [List.takeWhile_append_of_pos hfront]
  cases rest with
  | nil => exact List.append_nil front
  | cons c rest => rw [List.takeWhile_cons_of_neg (by simp [hrest c rfl]), List.append_nil]

theorem dropWhile_run (hfront : ∀ c ∈ front, p c = true) (hrest : Stops p rest) :
    (front ++ rest).dropWhile p = rest := by
  rw [List.dropWhile_append_of_pos hfront]
  cases rest with
  | nil => rfl
  | cons c rest => rw [List.dropWhile_cons_of_neg (by simp [hrest c rfl])]

end

/-! ## Trimming and splitting -/

theorem dropWhile_append_cons {γ : Type} {p : γ → Bool} {mark : γ}
    (hmark : p mark = false) (before after : List γ) :
    (before ++ mark :: after).dropWhile p =
      before.dropWhile p ++ mark :: after := by
  induction before with
  | nil => simp [hmark]
  | cons c rest ih =>
      by_cases hc : p c = true
      · simpa [hc] using ih
      · simp [hc]

theorem trimBlanks_append_cons {mark : Char} (hmark : isBlank mark = false)
    (before after : List Char) :
    trimBlanks (before ++ mark :: after) =
      before.dropWhile isBlank ++ mark :: after.rdropWhile isBlank := by
  rw [trimBlanks, dropWhile_append_cons hmark, List.reverse_append,
    List.reverse_cons, List.append_assoc, List.singleton_append,
    dropWhile_append_cons hmark]
  simp [List.rdropWhile]

theorem mem_trimBlanks {c : Char} (hc : isBlank c = false) {cs : List Char}
    (hmem : c ∈ cs) : c ∈ trimBlanks cs := by
  obtain ⟨before, after, rfl⟩ := List.append_of_mem hmem
  rw [trimBlanks_append_cons hc]
  simp

theorem trimBlanks_append_blanks (cs : List Char) {blanks : List Char}
    (hblanks : ∀ c ∈ blanks, isBlank c = true) :
    trimBlanks (cs ++ blanks) = trimBlanks cs := by
  have hnone : blanks.dropWhile isBlank = [] :=
    List.dropWhile_eq_nil_iff.mpr hblanks
  have hreverse : ∀ c ∈ blanks.reverse, isBlank c = true := by
    simpa using hblanks
  rw [trimBlanks, List.dropWhile_append]
  split
  next hempty => simp [trimBlanks, hnone, List.isEmpty_iff.mp hempty]
  next =>
    rw [List.reverse_append, List.dropWhile_append_of_pos hreverse, trimBlanks]

section

variable {γ : Type} [DecidableEq γ] {mark : γ}

theorem splitAll_cons_ne {c : γ} (hc : c ≠ mark) (cs : List γ) :
    ∃ piece pieces, splitAll mark cs = piece :: pieces ∧
      splitAll mark (c :: cs) = (c :: piece) :: pieces := by
  cases hsplit : splitAll mark cs with
  | nil => exact (splitAll_ne_nil mark cs hsplit).elim
  | cons piece pieces =>
      exact ⟨piece, pieces, rfl, by rw [splitAll, if_neg hc, hsplit]⟩

/-- What is put behind a text without the mark goes to its last piece. -/
theorem splitAll_append_of_not_mem {behind : List γ} (hbehind : mark ∉ behind)
    (cs : List γ) : ∃ front last, splitAll mark cs = front ++ [last] ∧
      splitAll mark (cs ++ behind) = front ++ [last ++ behind] := by
  induction cs with
  | nil => exact ⟨[], [], rfl, splitAll_eq_singleton hbehind⟩
  | cons c rest ih =>
      obtain ⟨front, last, hrest, happended⟩ := ih
      by_cases hc : c = mark
      · refine ⟨[] :: front, last, ?_, ?_⟩
        · simp [splitAll, hc, hrest]
        · simp [splitAll, hc, happended]
      · cases front with
        | nil =>
            refine ⟨[], c :: last, ?_, ?_⟩
            · simp [splitAll, hc, hrest]
            · simp [splitAll, hc, happended]
        | cons piece pieces =>
            refine ⟨(c :: piece) :: pieces, last, ?_, ?_⟩
            · simp [splitAll, hc, hrest]
            · simp [splitAll, hc, happended]

theorem mem_piece {c : γ} (hc : c ≠ mark) {cs : List γ} (hmem : c ∈ cs) :
    ∃ piece ∈ splitAll mark cs, c ∈ piece := by
  induction cs with
  | nil => exact nomatch hmem
  | cons head rest ih =>
      by_cases hhead : head = mark
      · have hrest : c ∈ rest := by
          rcases List.mem_cons.mp hmem with rfl | hrest
          · exact (hc hhead).elim
          · exact hrest
        obtain ⟨piece, hpiece, hin⟩ := ih hrest
        refine ⟨piece, ?_, hin⟩
        simp [splitAll, hhead, hpiece]
      · obtain ⟨first, pieces, hrest, hcons⟩ := splitAll_cons_ne hhead rest
        rw [hrest] at ih
        rw [hcons]
        rcases List.mem_cons.mp hmem with rfl | hlater
        · exact ⟨c :: first, List.mem_cons_self, List.mem_cons_self⟩
        · obtain ⟨piece, hpiece, hin⟩ := ih hlater
          rcases List.mem_cons.mp hpiece with rfl | hother
          · exact ⟨head :: piece, List.mem_cons_self,
              List.mem_cons_of_mem _ hin⟩
          · exact ⟨piece, List.mem_cons_of_mem _ hother, hin⟩

theorem splitAll_intercalate {pieces : List (List γ)} (hne : pieces ≠ [])
    (hpieces : ∀ piece ∈ pieces, mark ∉ piece) :
    splitAll mark ([mark].intercalate pieces) = pieces := by
  induction pieces with
  | nil => exact (hne rfl).elim
  | cons piece rest ih =>
      obtain ⟨hpiece, hrest⟩ := List.forall_mem_cons.mp hpieces
      cases rest with
      | nil => rw [List.intercalate_singleton, splitAll_eq_singleton hpiece]
      | cons next rest =>
          rw [List.intercalate_cons_cons, List.append_assoc,
            List.singleton_append, splitAll_append _ hpiece,
            ih (List.cons_ne_nil next rest) hrest]

end

/-! ## Numbers -/

namespace Whole

theorem readDigits_ok {limit value n : Nat} {beyond : NumberFault}
    {cs : List Char} (hread : readDigits limit beyond value cs = .ok n) :
    ∀ c ∈ cs, isDigit c = true := by
  induction cs generalizing value with
  | nil => simp
  | cons c rest ih =>
      unfold readDigits at hread
      split at hread
      next => exact nomatch hread
      next digit hdigit =>
        split at hread
        next =>
          rw [List.forall_mem_cons]
          refine ⟨?_, ih hread⟩
          rw [isDigit, hdigit]
          rfl
        next => exact nomatch hread

/-- A whole number has no other characters than signs and digits. -/
theorem readInt_ok {cs : List Char} {n : Int} (hread : readInt cs = .ok n) :
    ∀ c ∈ cs, c = '-' ∨ c = '+' ∨ isDigit c = true := by
  have hdigits : ∀ {limit : Nat} {beyond : NumberFault}
      {digits : List Char},
      (∀ fault, readDigits limit beyond 0 digits ≠ .error fault) →
        ∀ c ∈ digits, c = '-' ∨ c = '+' ∨ isDigit c = true := by
    intro limit beyond digits hfine c hc
    cases hvalue : readDigits limit beyond 0 digits with
    | error fault => exact (hfine fault hvalue).elim
    | ok value => exact Or.inr (Or.inr (readDigits_ok hvalue c hc))
  unfold readInt at hread
  split at hread
  next => exact nomatch hread
  next => exact nomatch hread
  next => exact nomatch hread
  next =>
    rw [List.forall_mem_cons]
    refine ⟨Or.inl rfl, ?_⟩
    apply hdigits
    intro fault hfault
    rw [hfault] at hread
    exact nomatch hread
  next =>
    rw [List.forall_mem_cons]
    refine ⟨Or.inr (Or.inl rfl), ?_⟩
    apply hdigits
    intro fault hfault
    rw [hfault] at hread
    exact nomatch hread
  next =>
    apply hdigits
    intro fault hfault
    rw [hfault] at hread
    exact nomatch hread

end Whole

namespace Answer

/-! ## The parts of an answer -/

/-- The action in a text, if it is readable. -/
def actionOf? (cs : List Char) : Option (List Int) :=
  ((splitAll ',' cs).mapM (readField Whole.readInt)).toOption

/-- The time and the load in a text, if they are readable. -/
def measuredOf? (cs : List Char) : Option (Literal × Literal) :=
  (splitFirst? ',' (cs.dropWhile isBlank)).bind fun (time, cpu) =>
    (readField Literal.read time).toOption.bind fun time =>
      (readField Literal.read cpu).toOption.map fun cpu => (time, cpu)

theorem readField_append_blanks {β : Type}
    (read : List Char → Except NumberFault β) (field : List Char)
    {blanks : List Char} (hblanks : ∀ c ∈ blanks, isBlank c = true) :
    readField read (field ++ blanks) = readField read field := by
  rw [readField, readField, trimBlanks_append_blanks field hblanks]

theorem actionOf?_rdropWhile (cs : List Char) :
    actionOf? (cs.rdropWhile isBlank) = actionOf? cs := by
  have hblanks : ∀ c ∈ cs.rtakeWhile isBlank, isBlank c = true :=
    fun c hc => List.mem_rtakeWhile_imp hc
  have hunmarked : ',' ∉ cs.rtakeWhile isBlank := by
    intro hcomma
    exact absurd (hblanks ',' hcomma) (by decide)
  obtain ⟨front, last, hshort, hlong⟩ :=
    splitAll_append_of_not_mem hunmarked (cs.rdropWhile isBlank)
  rw [List.rdropWhile_append_rtakeWhile] at hlong
  rw [actionOf?, actionOf?, hshort, hlong, List.mapM_append,
    List.mapM_append, List.mapM_cons, List.mapM_cons,
    readField_append_blanks Whole.readInt last hblanks]

/-- What is read of a field has no other characters than signs and digits, up to
blanks. -/
theorem of_mem_readField {field : List Char} {n : Int}
    (hread : readField Whole.readInt field = .ok n) {c : Char}
    (hc : c ∈ field) :
    isBlank c = true ∨ c = '-' ∨ c = '+' ∨ isDigit c = true := by
  by_cases hblank : isBlank c = true
  · exact Or.inl hblank
  · right
    have hmem := mem_trimBlanks (Bool.eq_false_iff.mpr hblank) hc
    unfold readField at hread
    dsimp only at hread
    cases hvalue : Whole.readInt (trimBlanks field) with
    | error fault =>
        rw [hvalue] at hread
        exact nomatch hread
    | ok value => exact Whole.readInt_ok hvalue c hmem

theorem actionOf?_eq_none {cs : List Char} (hmark : 'd' ∈ cs) :
    actionOf? cs = none := by
  obtain ⟨piece, hpiece, hin⟩ := mem_piece (by decide : 'd' ≠ ',') hmark
  unfold actionOf?
  cases haction : (splitAll ',' cs).mapM (readField Whole.readInt) with
  | error fault => rfl
  | ok action =>
      obtain ⟨n, hread⟩ := mapM_ok haction piece hpiece
      exact absurd (of_mem_readField hread hin) (by decide)

/-- The head of an action decides whether the action is readable, if everything
behind it is. -/
theorem actionOf?_intercalate {choice : List Char} (hchoice : ',' ∉ choice)
    {others : List (List Char)} (hothers : ∀ other ∈ others, ∃ n,
      readField Whole.readInt other = .ok n) :
    ∃ rest, actionOf? ([','].intercalate (choice :: others)) =
      (readField Whole.readInt choice).toOption.map (· :: rest) := by
  have hpieces : ∀ piece ∈ choice :: others, ',' ∉ piece := by
    rw [List.forall_mem_cons]
    refine ⟨hchoice, ?_⟩
    intro other hother hcomma
    obtain ⟨n, hread⟩ := hothers other hother
    exact absurd (of_mem_readField hread hcomma) (by decide)
  obtain ⟨rest, hrest⟩ := exists_mapM_ok hothers
  refine ⟨rest, ?_⟩
  rw [actionOf?, splitAll_intercalate (List.cons_ne_nil _ _) hpieces,
    List.mapM_cons, hrest]
  cases readField Whole.readInt choice <;> rfl

variable {α : Type} [Arith α]

theorem readChars_toOption (model : CostModel α) {measured : List Char}
    (hmark : 'd' ∉ measured) (action : List Char) :
    (readChars model (measured ++ 'd' :: action)).toOption =
      (measuredOf? measured).bind fun (time, cpu) =>
        (actionOf? action).map fun action =>
          ⟨model.simulated (Arith.ofLiteral time), Arith.ofLiteral cpu,
            action⟩ := by
  have hfront : 'd' ∉ measured.dropWhile isBlank :=
    fun hmem => hmark ((List.dropWhile_sublist isBlank).mem hmem)
  rw [readChars, trimBlanks_append_cons (by decide),
    splitFirst?_append _ hfront, measuredOf?, ← actionOf?_rdropWhile]
  dsimp only
  cases splitFirst? ',' (measured.dropWhile isBlank) with
  | none => rfl
  | some pair =>
      obtain ⟨time, cpu⟩ := pair
      dsimp only [Option.bind_some]
      cases readField Literal.read time with
      | error fault => rfl
      | ok time =>
          cases readField Literal.read cpu with
          | error fault => rfl
          | ok cpu =>
              unfold actionOf?
              cases (splitAll ',' (action.rdropWhile isBlank)).mapM
                (readField Whole.readInt) <;> rfl

theorem readChars_of_marks (model : CostModel α) {measured : List Char}
    (hmark : 'd' ∈ measured) (action : List Char) :
    (readChars model (measured ++ 'd' :: action)).toOption = none := by
  obtain ⟨front, rest, rfl, hfront⟩ := List.eq_append_cons_of_mem hmark
  have hmore : 'd' ∈ rest ++ 'd' :: action := by simp
  rw [List.append_assoc, List.cons_append, readChars_toOption model hfront,
    actionOf?_eq_none hmore]
  cases measuredOf? front <;> rfl

/-- Answers that differ in their actions alone are read alike up to them. -/
theorem readChars_map (model : CostModel α) (measured : List Char)
    {action action' : List Char} {change : List Int → List Int}
    (haction : actionOf? action' = (actionOf? action).map change) :
    (readChars model (measured ++ 'd' :: action')).toOption =
      (readChars model (measured ++ 'd' :: action)).toOption.map fun answer =>
        { answer with action := change answer.action } := by
  by_cases hmark : 'd' ∈ measured
  · rw [readChars_of_marks model hmark, readChars_of_marks model hmark]
    rfl
  · rw [readChars_toOption model hmark, readChars_toOption model hmark,
      haction]
    cases measuredOf? measured with
    | none => rfl
    | some pair => cases actionOf? action <;> rfl

end Answer
end FogDispatch
