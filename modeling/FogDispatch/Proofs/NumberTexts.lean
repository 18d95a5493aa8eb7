import FogDispatch.Proofs.AnswerGrammar
import FogDispatch.Proofs.ShortestDigits

/-!
# Texts of numbers in request lines

The text of a finite number is a literal.  Read without rounding, its value is the
shortest decimal of the number, wherever the point was put and whether or not there
is an exponent.  Since no two numbers share a decimal, no two numbers share a text.
The characters are digits, signs, the point and the mark of the exponent, and one of
the last two is always there.
-/

namespace FogDispatch

/-! ## Digits -/

/-- The ten digits. -/
def digitList : List Char := ['0', '1', '2', '3', '4', '5', '6', '7', '8', '9']

theorem isDigit_iff_mem {c : Char} : isDigit c = true ↔ c ∈ digitList := by
  constructor
  · intro hdigit
    have hrange : '0' ≤ c ∧ c ≤ '9' := by
      by_contra hout
      rw [isDigit, digitValue?, if_neg hout] at hdigit
      cases hdigit
    have hlow : 48 ≤ c.toNat := hrange.1
    have hhigh : c.toNat ≤ 57 := hrange.2
    rw [← Char.ofNat_toNat c]
    interval_cases c.toNat <;> decide
  · have hall : digitList.all isDigit = true := by decide
    exact List.all_eq_true.mp hall c

theorem digitValue?_of_isDigit {c : Char} (hdigit : isDigit c = true) :
    digitValue? c = some (c.toNat - '0'.toNat) := by
  have hall : digitList.all
      (fun c => digitValue? c == some (c.toNat - '0'.toNat)) = true := by decide
  exact beq_iff_eq.mp (List.all_eq_true.mp hall c (isDigit_iff_mem.mp hdigit))

theorem toLower_of_isDigit {c : Char} (hdigit : isDigit c = true) :
    c.toLower ≠ 'i' ∧ c.toLower ≠ 'n' := by
  have hall : digitList.all
      (fun c => c.toLower != 'i' && c.toLower != 'n') = true := by decide
  have hc := List.all_eq_true.mp hall c (isDigit_iff_mem.mp hdigit)
  simpa using hc

/-- The digit zero, alone in front of or behind a point. -/
theorem isDigit_zero : ∀ c ∈ ['0'], isDigit c = true :=
  List.forall_mem_singleton.mpr (by decide)

theorem isDigit_of_mem_digitChars {n : Nat} {c : Char}
    (hc : c ∈ Decimal.digitChars n) : isDigit c = true := by
  have hdigit : c.isDigit = true :=
    Nat.isDigit_of_mem_toDigits (by decide) (by decide) hc
  rw [isDigit, Whole.digitValue?_of_isDigit hdigit, Option.isSome_some]

theorem foldl_digits (value : Nat) (cs : List Char) :
    cs.foldl (fun n c => 10 * n + (digitValue? c).getD 0) value =
      value * 10 ^ cs.length + digitsValue cs := by
  unfold digitsValue
  induction cs generalizing value with
  | nil => simp
  | cons c rest ih =>
      rw [List.foldl_cons, List.foldl_cons, ih, ih (10 * 0 + _),
        List.length_cons, pow_succ]
      ring

@[simp] theorem digitsValue_append (front back : List Char) :
    digitsValue (front ++ back) =
      digitsValue front * 10 ^ back.length + digitsValue back := by
  rw [digitsValue, List.foldl_append, foldl_digits]
  rfl

@[simp] theorem digitsValue_zeros (count : Nat) :
    digitsValue (List.replicate count '0') = 0 := by
  induction count with
  | zero => rfl
  | succ count ih =>
      rw [List.replicate_succ', digitsValue_append, ih]
      rfl

theorem digitsValue_digitChars (n : Nat) :
    digitsValue (Decimal.digitChars n) = n := by
  have hfold : ∀ (cs : List Char) (value : Nat),
      (∀ c ∈ cs, isDigit c = true) →
        cs.foldl (fun n c => 10 * n + (digitValue? c).getD 0) value =
          Nat.ofDigitChars 10 cs value := by
    intro cs
    induction cs with
    | nil =>
        intro value _
        rw [Nat.ofDigitChars_nil]
        rfl
    | cons c rest ih =>
        intro value hdigits
        obtain ⟨hc, hrest⟩ := List.forall_mem_cons.mp hdigits
        rw [List.foldl_cons, ih _ hrest, Nat.ofDigitChars_cons,
          digitValue?_of_isDigit hc, Option.getD_some]
  rw [digitsValue, hfold _ _ fun _ => isDigit_of_mem_digitChars]
  exact Nat.ofDigitChars_ten_toDigits

/-! ## Literals without a sign -/

namespace Literal

/-- A text without a sign is a literal of this value. -/
def Denotes (cs : List Char) (value : ℚ) : Prop :=
  ∃ literal, readUnsigned false cs = some literal ∧ literal.exact = value

theorem Denotes.unique {cs : List Char} {value other : ℚ}
    (hvalue : Denotes cs value) (hother : Denotes cs other) : value = other := by
  obtain ⟨literal, hread, rfl⟩ := hvalue
  obtain ⟨literal', hread', rfl⟩ := hother
  rw [hread] at hread'
  rw [Option.some.inj hread']

/-- A text that starts with a digit is none of the named values. -/
theorem lowered_ne {c : Char} {rest word : List Char} (hc : isDigit c = true)
    (hword : word.head? = some 'i' ∨ word.head? = some 'n') :
    lowered (c :: rest) ≠ word := by
  rintro rfl
  simp only [lowered, List.map_cons, List.head?_cons, Option.some.injEq]
    at hword
  rcases hword with hi | hn
  · exact (toLower_of_isDigit hc).1 hi
  · exact (toLower_of_isDigit hc).2 hn

/-- Digits with a point among them and what may follow them. -/
theorem readUnsigned_pointed {whole fraction : List Char} (tail : List Char)
    (hsome : whole ≠ []) (hwhole : ∀ c ∈ whole, isDigit c = true)
    (hfraction : ∀ c ∈ fraction, isDigit c = true)
    (htail : Stops isDigit tail) :
    readUnsigned false (whole ++ '.' :: (fraction ++ tail)) =
      (readExponent tail).map fun exponent =>
        finite false (digitsValue (whole ++ fraction))
          (exponent - fraction.length) := by
  obtain ⟨c, rest, rfl⟩ := List.exists_cons_of_ne_nil hsome
  have hc : isDigit c = true := hwhole c List.mem_cons_self
  have hpoint : Stops isDigit ('.' :: (fraction ++ tail)) := stops_cons (by decide) _
  unfold readUnsigned
  simp only [takeWhile_run hwhole hpoint, dropWhile_run hwhole hpoint,
    takeWhile_run hfraction htail, dropWhile_run hfraction htail]
  rw [List.cons_append, if_neg, if_neg (lowered_ne hc (.inr rfl)), if_neg]
  · simp
  · rintro (hinf | hinfinity)
    · exact lowered_ne hc (.inl rfl) hinf
    · exact lowered_ne hc (.inl rfl) hinfinity

/-- Digits without a point and an exponent behind them. -/
theorem readUnsigned_whole {whole tail : List Char} (hsome : whole ≠ [])
    (hwhole : ∀ c ∈ whole, isDigit c = true) :
    readUnsigned false (whole ++ 'e' :: tail) =
      (readExponent ('e' :: tail)).map fun exponent =>
        finite false (digitsValue whole) exponent := by
  obtain ⟨c, rest, rfl⟩ := List.exists_cons_of_ne_nil hsome
  have hc : isDigit c = true := hwhole c List.mem_cons_self
  have hmark : Stops isDigit ('e' :: tail) := stops_cons (by decide) _
  unfold readUnsigned
  simp only [takeWhile_run hwhole hmark, dropWhile_run hwhole hmark]
  rw [List.cons_append, if_neg, if_neg (lowered_ne hc (.inr rfl)), if_neg]
  · simp
  · simp
  · rintro (hinf | hinfinity)
    · exact lowered_ne hc (.inl rfl) hinf
    · exact lowered_ne hc (.inl rfl) hinfinity

theorem readExponent_digitChars (lead : Int) :
    readExponent ('e' :: ((if lead < 0 then ['-'] else ['+']) ++
      Decimal.digitChars lead.natAbs)) = some lead := by
  have hsome : (Decimal.digitChars lead.natAbs).isEmpty = false := by
    rw [List.isEmpty_eq_false_iff]
    exact Nat.toDigits_ne_nil
  have hdigits : (Decimal.digitChars lead.natAbs).all isDigit = true := by
    rw [List.all_eq_true]
    exact fun _ => isDigit_of_mem_digitChars
  by_cases hnegative : lead < 0
  · rw [if_pos hnegative, List.singleton_append, readExponent]
    simp only [hsome, hdigits, digitsValue_digitChars]
    simp [abs_of_neg hnegative]
  · rw [if_neg hnegative, List.singleton_append, readExponent]
    simp only [hsome, hdigits, digitsValue_digitChars]
    simp [abs_of_nonneg (not_lt.mp hnegative)]

theorem denotes_pointed {whole fraction : List Char} (hsome : whole ≠ [])
    (hwhole : ∀ c ∈ whole, isDigit c = true)
    (hfraction : ∀ c ∈ fraction, isDigit c = true) :
    Denotes (whole ++ '.' :: fraction)
      (digitsValue (whole ++ fraction) * 10 ^ (-(fraction.length : Int))) := by
  have hread := readUnsigned_pointed [] hsome hwhole hfraction
    fun c hc => by cases hc
  rw [List.append_nil, readExponent, Option.map_some, zero_sub] at hread
  exact ⟨_, hread, by simp [exact]⟩

end Literal

/-! ## The two ways of writing digits -/

namespace RealStyle

open Literal

theorem isDigit_of_mem_zeros {count : Nat} {c : Char}
    (hc : c ∈ List.replicate count '0') : isDigit c = true := by
  rw [List.eq_of_mem_replicate hc]
  decide

theorem take_ne_nil {digits : List Char} (hsome : digits ≠ []) {place : Nat}
    (hplace : 0 < place) : digits.take place ≠ [] := by
  rw [ne_eq, List.take_eq_nil_iff, not_or]
  exact ⟨hplace.ne', hsome⟩

section Positional

variable {digits : List Char} (hsome : digits ≠ [])
  (hdigits : ∀ c ∈ digits, isDigit c = true)
include hdigits

theorem denotes_behind_zeros (count : Nat) :
    Denotes ('0' :: '.' :: (List.replicate count '0' ++ digits))
      (digitsValue digits * 10 ^ (-((count + digits.length : Nat) : Int))) := by
  have hfraction : ∀ c ∈ List.replicate count '0' ++ digits, isDigit c = true :=
    List.forall_mem_append.mpr ⟨fun _ => isDigit_of_mem_zeros, hdigits⟩
  have hdenotes := denotes_pointed (by simp : ['0'] ≠ []) isDigit_zero hfraction
  have hzero : digitsValue ['0'] = 0 := rfl
  rw [List.length_append, List.length_replicate, digitsValue_append,
    digitsValue_append, digitsValue_zeros, hzero, zero_mul, zero_mul, zero_add,
    zero_add] at hdenotes
  exact hdenotes

include hsome

theorem denotes_before_zeros (count : Nat) :
    Denotes (digits ++ List.replicate count '0' ++ '.' :: ['0'])
      (digitsValue digits * 10 ^ count) := by
  have hwhole : ∀ c ∈ digits ++ List.replicate count '0', isDigit c = true :=
    List.forall_mem_append.mpr ⟨hdigits, fun _ => isDigit_of_mem_zeros⟩
  have hdenotes := denotes_pointed
    (List.append_ne_nil_of_left_ne_nil hsome _) hwhole isDigit_zero
  have hzero : digitsValue ['0'] = 0 := rfl
  rw [digitsValue_append, digitsValue_append, digitsValue_zeros, hzero,
    List.length_replicate, List.length_singleton] at hdenotes
  convert hdenotes using 1
  push_cast
  norm_num
  ring

theorem denotes_between {place : Nat} (hplace : 0 < place) :
    Denotes (digits.take place ++ '.' :: digits.drop place)
      (digitsValue digits * 10 ^ (-((digits.length - place : Nat) : Int))) := by
  have hfraction : ∀ c ∈ digits.drop place, isDigit c = true :=
    fun c hc => hdigits c (List.mem_of_mem_drop hc)
  have hdenotes := denotes_pointed (take_ne_nil hsome hplace)
    (fun c hc => hdigits c (List.mem_of_mem_take hc)) hfraction
  rw [List.take_append_drop, List.length_drop] at hdenotes
  exact hdenotes

/-- The point is put where the leading digit has its power of ten. -/
theorem denotes_writePositional (lead : Int) :
    Denotes (writePositional true digits lead)
      (digitsValue digits * 10 ^ (lead + 1 - digits.length)) := by
  unfold writePositional
  split
  next hnegative =>
    have hexponent : lead + 1 - digits.length =
        -(((-lead).toNat - 1 + digits.length : Nat) : Int) := by omega
    rw [hexponent]
    exact denotes_behind_zeros hdigits _
  next hpositive =>
    simp only [if_true]
    split
    next hshort =>
      have hexponent : lead + 1 - digits.length =
          ((lead.toNat + 1 - digits.length : Nat) : Int) := by omega
      rw [hexponent, zpow_natCast]
      exact denotes_before_zeros hsome hdigits _
    next hlong =>
      have hexponent : lead + 1 - digits.length =
          -((digits.length - (lead.toNat + 1) : Nat) : Int) := by omega
      rw [hexponent]
      exact denotes_between hsome hdigits (Nat.succ_pos _)

end Positional

theorem denotes_writeScientific {digits : List Char}
    (hsome : digits ≠ []) (hdigits : ∀ c ∈ digits, isDigit c = true) (lead : Int) :
    Denotes (writeScientific true digits lead)
      (digitsValue digits * 10 ^ (lead + 1 - digits.length)) := by
  obtain ⟨c, fraction, rfl⟩ := List.exists_cons_of_ne_nil hsome
  obtain ⟨hc, hfraction⟩ := List.forall_mem_cons.mp hdigits
  have hwhole : ∀ d ∈ [c], isDigit d = true := by simpa using hc
  have hexponent := readExponent_digitChars lead
  have hsign : (if lead < 0 then ['-'] else if true = true then ['+'] else []) =
      if lead < 0 then ['-'] else ['+'] := by simp
  unfold writeScientific
  rw [hsign, List.drop_succ_cons, List.drop_zero, List.take_succ_cons,
    List.take_zero]
  cases fraction with
  | nil =>
      refine ⟨_, (readUnsigned_whole (by simp) hwhole).trans
        (by rw [hexponent]; rfl), ?_⟩
      simp [exact]
  | cons d rest =>
      refine ⟨.finite false (digitsValue ([c] ++ d :: rest))
        (lead - (d :: rest).length), ?_, ?_⟩
      · have hread := readUnsigned_pointed
          ('e' :: ((if lead < 0 then ['-'] else ['+']) ++
            Decimal.digitChars lead.natAbs))
          (by simp) hwhole hfraction (stops_cons (by decide) _)
        rw [hexponent, Option.map_some] at hread
        simpa using hread
      · have hlength : lead - ((d :: rest).length : Int) =
            lead + 1 - (c :: d :: rest).length := by
          simp only [List.length_cons]
          omega
        rw [hlength]
        simp [exact]

end RealStyle

/-! ## The digits of a decimal -/

namespace Decimal

theorem exists_zeros (decimal : Decimal) :
    ∃ zeros, digitChars decimal.digits =
      decimal.significant ++ List.replicate zeros '0' := by
  let back := (digitChars decimal.digits).reverse
  refine ⟨(back.takeWhile (· == '0')).length, ?_⟩
  have hzeros : (back.takeWhile (· == '0')).reverse =
      List.replicate (back.takeWhile (· == '0')).length '0' := by
    rw [List.eq_replicate_iff]
    refine ⟨List.length_reverse, fun c hc => ?_⟩
    exact beq_iff_eq.mp
      (List.mem_takeWhile_imp (p := (· == '0')) (List.mem_reverse.mp hc))
  rw [← hzeros, significant, ← List.reverse_append,
    List.takeWhile_append_dropWhile, List.reverse_reverse]

theorem isDigit_of_mem_significant {decimal : Decimal} {c : Char}
    (hc : c ∈ decimal.significant) : isDigit c = true := by
  obtain ⟨zeros, heq⟩ := decimal.exists_zeros
  exact isDigit_of_mem_digitChars (n := decimal.digits)
    (heq ▸ List.mem_append_left _ hc)

theorem digits_eq {decimal : Decimal} {zeros : Nat}
    (heq : digitChars decimal.digits =
      decimal.significant ++ List.replicate zeros '0') :
    decimal.digits = digitsValue decimal.significant * 10 ^ zeros := by
  have hvalue := digitsValue_digitChars decimal.digits
  rw [heq, digitsValue_append, digitsValue_zeros, List.length_replicate,
    add_zero] at hvalue
  exact hvalue.symm

theorem significant_ne_nil {decimal : Decimal} (hpos : 0 < decimal.digits) :
    decimal.significant ≠ [] := by
  intro hnil
  obtain ⟨zeros, heq⟩ := decimal.exists_zeros
  have hdigits := digits_eq heq
  rw [hnil] at hdigits
  have hzero : digitsValue [] = 0 := rfl
  rw [hzero, zero_mul] at hdigits
  omega

/-- The zeros that are dropped make up for the place of the leading digit. -/
theorem value_eq (decimal : Decimal) :
    digitsValue decimal.significant *
        (10 : ℚ) ^ (decimal.lead + 1 - decimal.significant.length) =
      decimal.value := by
  obtain ⟨zeros, heq⟩ := decimal.exists_zeros
  have hlead : decimal.lead + 1 - decimal.significant.length =
      zeros + decimal.exponent := by
    rw [lead, heq, List.length_append, List.length_replicate]
    push_cast
    ring
  rw [hlead, value, digits_eq heq, zpow_add₀ (by norm_num), zpow_natCast]
  push_cast
  ring

end Decimal

/-! ## Characters -/

/-- Whether a character may stand in the text of a number. -/
def isNumeric (c : Char) : Bool :=
  isDigit c || c == '-' || c == '+' || c == '.' || c == 'e'

theorem isNumeric_of_isDigit {c : Char} (hc : isDigit c = true) :
    isNumeric c = true := by
  simp [isNumeric, hc]

/-- A text starts with a digit, has the characters of numbers only, and one of
them is no digit. -/
structure MagnitudeText (cs : List Char) : Prop where
  head : ∃ c rest, cs = c :: rest ∧ isDigit c = true
  numeric : ∀ c ∈ cs, isNumeric c = true
  marked : ∃ c ∈ cs, isDigit c = false

theorem MagnitudeText.of_marked {front back : List Char} {mark : Char}
    (hsome : front ≠ []) (hfront : ∀ c ∈ front, isDigit c = true)
    (hmark : isNumeric mark = true ∧ isDigit mark = false)
    (hback : ∀ c ∈ back, isNumeric c = true) :
    MagnitudeText (front ++ mark :: back) where
  head := by
    obtain ⟨c, rest, rfl⟩ := List.exists_cons_of_ne_nil hsome
    exact ⟨c, _, rfl, hfront c List.mem_cons_self⟩
  numeric := List.forall_mem_append.mpr
    ⟨fun c hc => isNumeric_of_isDigit (hfront c hc),
      List.forall_mem_cons.mpr ⟨hmark.1, hback⟩⟩
  marked := ⟨mark, List.mem_append_right _ List.mem_cons_self, hmark.2⟩

namespace RealStyle

open Literal Shortest

theorem magnitudeText_writePositional {digits : List Char} (hsome : digits ≠ [])
    (hdigits : ∀ c ∈ digits, isDigit c = true) (lead : Int) :
    MagnitudeText (writePositional true digits lead) := by
  have hpoint : isNumeric '.' = true ∧ isDigit '.' = false := by decide
  unfold writePositional
  split
  next =>
    refine .of_marked (by simp : ['0'] ≠ []) isDigit_zero hpoint ?_
    intro c hc
    rcases List.mem_append.mp hc with hzero | hdigit
    · exact isNumeric_of_isDigit (isDigit_of_mem_zeros hzero)
    · exact isNumeric_of_isDigit (hdigits c hdigit)
  next =>
    simp only [if_true]
    split
    next =>
      refine .of_marked (List.append_ne_nil_of_left_ne_nil hsome _) ?_ hpoint
        fun c hc => isNumeric_of_isDigit (isDigit_zero c hc)
      exact List.forall_mem_append.mpr ⟨hdigits, fun _ => isDigit_of_mem_zeros⟩
    next hlong =>
      exact .of_marked (take_ne_nil hsome (Nat.succ_pos _))
        (fun c hc => hdigits c (List.mem_of_mem_take hc)) hpoint fun c hc =>
          isNumeric_of_isDigit (hdigits c (List.mem_of_mem_drop hc))

theorem magnitudeText_writeScientific {digits : List Char} (hsome : digits ≠ [])
    (hdigits : ∀ c ∈ digits, isDigit c = true) (lead : Int) :
    MagnitudeText (writeScientific true digits lead) := by
  have hexponent : ∀ c ∈ (if lead < 0 then ['-'] else
      if true = true then ['+'] else []) ++ Decimal.digitChars lead.natAbs,
      isNumeric c = true := by
    refine List.forall_mem_append.mpr ⟨?_, fun c hc =>
      isNumeric_of_isDigit (isDigit_of_mem_digitChars hc)⟩
    split <;> simp [isNumeric]
  obtain ⟨c, fraction, rfl⟩ := List.exists_cons_of_ne_nil hsome
  obtain ⟨hc, hfraction⟩ := List.forall_mem_cons.mp hdigits
  have hlead : [c] ≠ [] := List.cons_ne_nil c []
  have hwhole : ∀ d ∈ [c], isDigit d = true := by simpa using hc
  unfold writeScientific
  cases fraction with
  | nil => exact .of_marked hlead hwhole (by decide) hexponent
  | cons d rest =>
      rw [show (c :: d :: rest).take 1 = [c] from rfl, List.append_assoc]
      refine .of_marked hlead hwhole (by decide) ?_
      refine List.forall_mem_append.mpr ⟨fun d hd =>
        isNumeric_of_isDigit (hfraction d hd), ?_⟩
      exact List.forall_mem_cons.mpr ⟨by decide, hexponent⟩

/-! ## Magnitudes and numbers -/

/-- Zero has a text of its own, and any other magnitude that of its shortest
decimal. -/
theorem writeMagnitude_wire {m : Nat} (hlt : m < 2 ^ 53) (q : Int) :
    MagnitudeText (wire.writeMagnitude m q) ∧
      ∃ value, Denotes (wire.writeMagnitude m q) value ∧ Near m q value := by
  by_cases hzero : m = 0
  · subst hzero
    have hsome : ['0'] ≠ [] := by simp
    refine ⟨.of_marked hsome isDigit_zero (by decide)
      fun c hc => isNumeric_of_isDigit (isDigit_zero c hc), 0, ?_, near_zero q⟩
    have hdenotes := denotes_pointed hsome isDigit_zero isDigit_zero
    have hvalue : digitsValue (['0'] ++ ['0']) = 0 := rfl
    rw [hvalue, Nat.cast_zero, zero_mul] at hdenotes
    exact hdenotes
  · have hpos : 0 < m := Nat.pos_of_ne_zero hzero
    let decimal := shortestDecimal .toEven m q
    have hnear : Near m q decimal.value := shortestDecimal_near .toEven hpos hlt q
    have hdigits : 0 < decimal.digits := by
      by_contra hnone
      have hvalue : decimal.value = 0 := by
        rw [Decimal.value, Nat.eq_zero_of_not_pos hnone, Nat.cast_zero, zero_mul]
      rw [hvalue] at hnear
      exact not_near_zero hpos q hnear
    have hsome := Decimal.significant_ne_nil hdigits
    have hall : ∀ c ∈ decimal.significant, isDigit c = true :=
      fun _ => Decimal.isDigit_of_mem_significant
    have htext : wire.writeMagnitude m q =
        if (-5 : Int) ≤ decimal.lead ∧ decimal.lead ≤ 15 then
          writePositional true decimal.significant decimal.lead
        else writeScientific true decimal.significant decimal.lead := by
      unfold writeMagnitude
      rw [if_neg hzero]
      rfl
    rw [htext]
    split
    next =>
      exact ⟨magnitudeText_writePositional hsome hall _, decimal.value,
        decimal.value_eq ▸ denotes_writePositional hsome hall _, hnear⟩
    next =>
      exact ⟨magnitudeText_writeScientific hsome hall _, decimal.value,
        decimal.value_eq ▸ denotes_writeScientific hsome hall _, hnear⟩

theorem write_wire {a : Binary64} (hfinite : a.isFinite = true) :
    (wire.write a).toList = (if a.isNegative then ['-'] else []) ++
      wire.writeMagnitude a.decode.2.1 a.decode.2.2 := by
  rw [Binary64.isFinite, Bool.and_eq_true, Bool.not_eq_true', Bool.not_eq_true']
    at hfinite
  unfold write
  rw [hfinite.1, hfinite.2, ← a.decode_eq.1]
  simp

/-- The texts of finite numbers tell them apart, down to the sign of a zero. -/
theorem write_wire_injective {a b : Binary64} (ha : a.isFinite = true)
    (hb : b.isFinite = true) (hwrite : wire.write a = wire.write b) : a = b := by
  have htext := congrArg String.toList hwrite
  rw [write_wire ha, write_wire hb] at htext
  obtain ⟨hatext, value, havalue, hanear⟩ :=
    writeMagnitude_wire a.decode_canonical.lt a.decode.2.2
  obtain ⟨hbtext, other, hbvalue, hbnear⟩ :=
    writeMagnitude_wire b.decode_canonical.lt b.decode.2.2
  have hminus : ∀ {cs : List Char}, MagnitudeText cs → ∀ rest, cs ≠ '-' :: rest := by
    rintro cs hcs rest rfl
    obtain ⟨c, _, heq, hc⟩ := hcs.head
    obtain ⟨rfl, _⟩ := List.cons.inj heq
    exact absurd hc (by decide)
  have hsign : a.isNegative = b.isNegative ∧
      wire.writeMagnitude a.decode.2.1 a.decode.2.2 =
        wire.writeMagnitude b.decode.2.1 b.decode.2.2 := by
    cases hanegative : a.isNegative <;> cases hbnegative : b.isNegative <;>
      simp only [hanegative, hbnegative, if_true, Bool.false_eq_true, if_false,
        List.nil_append, List.singleton_append] at htext
    · exact ⟨rfl, htext⟩
    · exact absurd htext (hminus hatext _)
    · exact absurd htext.symm (hminus hbtext _)
    · exact ⟨rfl, (List.cons.inj htext).2⟩
  rw [hsign.2] at havalue
  rw [havalue.unique hbvalue] at hanear
  obtain ⟨hm, hq⟩ := hanear.unique a.decode_canonical b.decode_canonical hbnear
  apply Binary64.decode_injective
  refine Prod.ext ?_ (Prod.ext hm hq)
  rw [a.decode_eq.1, b.decode_eq.1]
  exact hsign.1

end RealStyle
end FogDispatch
