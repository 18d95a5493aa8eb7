import FogDispatch.Number.Notation
import FogDispatch.Number.Rational
import FogDispatch.Proofs.Clock
import Mathlib.Tactic

/-!
# Shortest digits

A number `m * 2 ^ q` is written with digits whose value lies nearer to it than to
its neighbours.  The values that do form an interval, and the intervals of two
numbers have no value in common: where they touch, one of the two significands is
odd and leaves the end out.  Seventeen digits always suffice, because the grid of
seventeen digits is finer than the interval is wide.  So a decimal is found for
every number, and no two numbers share one.
-/

namespace FogDispatch

/-- The value of a decimal. -/
def Decimal.value (decimal : Decimal) : ℚ :=
  decimal.digits * 10 ^ decimal.exponent

namespace Shortest

/-- The lower end of the interval of `m * 2 ^ q`, in quarters of the spacing. -/
def lowEnd (m : Nat) (q : Int) : Nat :=
  if m = 2 ^ 52 ∧ -1074 < q then 4 * m - 1 else 4 * m - 2

def highEnd (m : Nat) : Nat := 4 * m + 2

/-- The values that are rounded to `m * 2 ^ q`; the ends are among them if the
significand is even. -/
def Near (m : Nat) (q : Int) (value : ℚ) : Prop :=
  if m % 2 = 0 then
    lowEnd m q * 2 ^ q ≤ 4 * value ∧ 4 * value ≤ highEnd m * 2 ^ q
  else lowEnd m q * 2 ^ q < 4 * value ∧ 4 * value < highEnd m * 2 ^ q

/-- The significands and exponents of finite numbers. -/
structure Canonical (m : Nat) (q : Int) : Prop where
  lt : m < 2 ^ 53
  lowest_le : -1074 ≤ q
  full : -1074 < q → 2 ^ 52 ≤ m

/-! ## Comparisons of whole numbers -/

theorem pow_toNat {b : ℚ} (hb : b ≠ 0) (z : Int) :
    b ^ z.toNat = b ^ z * b ^ (-z).toNat := by
  rw [← zpow_natCast, ← zpow_natCast, ← zpow_add₀ hb]
  congr 1
  omega

theorem readsBack_iff (m : Nat) (q : Int) (d : Nat) (k : Int) :
    readsBack m q d k = true ↔ Near m q (d * 10 ^ k) := by
  let scale : ℚ := 2 ^ (-q).toNat * 10 ^ (-k).toNat
  have hscale : 0 < scale := by positivity
  have hpoint : ((4 * d * 10 ^ k.toNat * 2 ^ (-q).toNat : Nat) : ℚ) =
      4 * (d * 10 ^ k) * scale := by
    simp only [Nat.cast_mul, Nat.cast_pow, Nat.cast_ofNat]
    rw [pow_toNat (b := 10) (by norm_num) k]
    ring
  have hend : ∀ n : Nat,
      ((n * (2 ^ q.toNat * 10 ^ (-k).toNat) : Nat) : ℚ) = n * 2 ^ q * scale := by
    intro n
    simp only [Nat.cast_mul, Nat.cast_pow, Nat.cast_ofNat]
    rw [pow_toNat (b := 2) (by norm_num) q]
    ring
  have hle : ∀ x y : ℚ, x * scale ≤ y * scale ↔ x ≤ y :=
    fun x y => mul_le_mul_iff_of_pos_right hscale
  have hlt : ∀ x y : ℚ, x * scale < y * scale ↔ x < y :=
    fun x y => mul_lt_mul_iff_of_pos_right hscale
  unfold readsBack Near lowEnd highEnd
  simp only [Nat.pow_eq]
  split <;>
    simp only [Bool.and_eq_true, decide_eq_true_eq, ← Nat.cast_le (α := ℚ),
      ← Nat.cast_lt (α := ℚ), hpoint, hend, hle, hlt]

theorem onGrid_eq (m : Nat) (q k : Int) :
    ((onGrid m q k).1 : ℚ) * 10 ^ k = m * 2 ^ q * (onGrid m q k).2 := by
  simp only [onGrid, Nat.pow_eq, Nat.cast_mul, Nat.cast_pow, Nat.cast_ofNat]
  rw [pow_toNat (b := 2) (by norm_num) q, pow_toNat (b := 10) (by norm_num) k]
  ring

theorem onGrid_pos (m : Nat) (q k : Int) : 0 < (onGrid m q k).2 := by
  simp only [onGrid, Nat.pow_eq]
  positivity

/-- A number of as many digits is at least the power of ten of the first one. -/
theorem pow_le_of_digits {n : Nat} (hpos : 0 < n) :
    10 ^ ((Decimal.digitChars n).length - 1) ≤ n := by
  have hlength : 0 < (Decimal.digitChars n).length := Nat.length_toDigits_pos
  by_contra hlt
  rcases Nat.eq_zero_or_pos ((Decimal.digitChars n).length - 1) with hone | hmore
  · rw [hone] at hlt
    omega
  · have hle := (Nat.length_toDigits_le_iff (b := 10) (by decide) hmore).mpr
      (Nat.lt_of_not_le hlt)
    have : (Decimal.digitChars n).length ≤
        (Decimal.digitChars n).length - 1 := hle
    omega

theorem lt_pow_of_digits (n : Nat) : n < 10 ^ (Decimal.digitChars n).length :=
  (Nat.length_toDigits_le_iff (b := 10) (by decide) Nat.length_toDigits_pos).mp
    le_rfl

/-- Whichever of the two guesses is taken, the leading digit is not overshot. -/
theorem leadOf_le {m : Nat} (hpos : 0 < m) (q : Int) :
    (10 : ℚ) ^ leadOf m q ≤ m * 2 ^ q := by
  unfold leadOf
  dsimp only
  generalize hguess : ((Decimal.digitChars (onGrid m q 0).1).length : Int) -
    (Decimal.digitChars (onGrid m q 0).2).length = guess
  split
  next hle =>
    have hden : (0 : ℚ) < (onGrid m q guess).2 := by
      exact_mod_cast onGrid_pos m q guess
    rw [← mul_le_mul_iff_of_pos_right hden, ← onGrid_eq, mul_comm]
    have hcast : ((onGrid m q guess).2 : ℚ) ≤ (onGrid m q guess).1 := by
      exact_mod_cast hle
    gcongr
  next =>
    have hden : (0 : ℚ) < (onGrid m q 0).2 := by exact_mod_cast onGrid_pos m q 0
    have hvalue := onGrid_eq m q 0
    rw [zpow_zero, mul_one] at hvalue
    have hnum : 0 < (onGrid m q 0).1 := by
      have : (0 : ℚ) < (onGrid m q 0).1 := by
        rw [hvalue]
        positivity
      exact_mod_cast this
    have hlow : (10 : ℚ) ^ ((Decimal.digitChars (onGrid m q 0).1).length - 1) ≤
        (onGrid m q 0).1 := by exact_mod_cast pow_le_of_digits hnum
    have hhigh : ((onGrid m q 0).2 : ℚ) ≤
        10 ^ (Decimal.digitChars (onGrid m q 0).2).length := by
      exact_mod_cast (lt_pow_of_digits (onGrid m q 0).2).le
    have hlength : 0 < (Decimal.digitChars (onGrid m q 0).1).length :=
      Nat.length_toDigits_pos
    rw [← mul_le_mul_iff_of_pos_right hden, ← hvalue]
    calc
      (10 : ℚ) ^ (guess - 1) * (onGrid m q 0).2 ≤
          10 ^ (guess - 1) *
            10 ^ (Decimal.digitChars (onGrid m q 0).2).length := by gcongr
      _ = 10 ^ ((Decimal.digitChars (onGrid m q 0).1).length - 1) := by
        rw [← zpow_natCast, ← zpow_natCast, ← zpow_add₀ (by norm_num)]
        congr 1
        omega
      _ ≤ (onGrid m q 0).1 := hlow

theorem roundQuotient_near (tie : Tie) (num : Nat) {den : Nat} (hden : 0 < den) :
    2 * num ≤ (2 * roundQuotient tie num den + 1) * den ∧
      2 * roundQuotient tie num den * den ≤ 2 * num + den := by
  have hsplit := Nat.div_add_mod num den
  have hrest := Nat.mod_lt num hden
  unfold roundQuotient
  dsimp only
  generalize num / den = floor at hsplit ⊢
  generalize num % den = rest at hsplit hrest ⊢
  have hbelow : 2 * rest ≤ den →
      2 * num ≤ (2 * floor + 1) * den ∧ 2 * floor * den ≤ 2 * num + den := by
    intro hhalf
    constructor <;> linarith
  have habove : den ≤ 2 * rest →
      2 * num ≤ (2 * (floor + 1) + 1) * den ∧
        2 * (floor + 1) * den ≤ 2 * num + den := by
    intro hhalf
    constructor <;> linarith
  split
  next hless => exact hbelow hless.le
  next hless =>
    split
    next hmore => exact habove hmore.le
    next hmore =>
      have htie : 2 * rest = den := by omega
      cases tie with
      | toEven =>
          dsimp only
          split
          next => exact hbelow htie.le
          next => exact habove htie.ge
      | upward => exact habove htie.ge

/-- On a grid a number is missed by half a unit at most. -/
theorem roundQuotient_onGrid (tie : Tie) (m : Nat) (q k : Int) :
    let rounded := roundQuotient tie (onGrid m q k).1 (onGrid m q k).2
    2 * (m * 2 ^ q) ≤ 2 * (rounded * 10 ^ k) + (10 : ℚ) ^ k ∧
      2 * (rounded * 10 ^ k) ≤ 2 * (m * 2 ^ q) + (10 : ℚ) ^ k := by
  dsimp only
  have hgrid := onGrid_eq m q k
  have hpos := onGrid_pos m q k
  generalize onGrid m q k = grid at hgrid hpos ⊢
  have hden : (0 : ℚ) < grid.2 := by exact_mod_cast hpos
  have hunit : (0 : ℚ) < 10 ^ k := by positivity
  obtain ⟨hbelow, habove⟩ := roundQuotient_near tie grid.1 hpos
  generalize roundQuotient tie grid.1 grid.2 = rounded at hbelow habove ⊢
  have hbelow' : 2 * (grid.1 : ℚ) ≤ (2 * rounded + 1) * grid.2 := by
    exact_mod_cast hbelow
  have habove' : 2 * (rounded : ℚ) * grid.2 ≤ 2 * grid.1 + grid.2 := by
    exact_mod_cast habove
  constructor
  · rw [← mul_le_mul_iff_of_pos_right hden]
    calc
      2 * ((m : ℚ) * 2 ^ q) * grid.2 = 2 * grid.1 * 10 ^ k := by
        rw [mul_assoc, ← hgrid, mul_assoc]
      _ ≤ (2 * rounded + 1) * grid.2 * 10 ^ k := by gcongr
      _ = (2 * (rounded * 10 ^ k) + 10 ^ k) * grid.2 := by ring
  · rw [← mul_le_mul_iff_of_pos_right hden]
    calc
      2 * ((rounded : ℚ) * 10 ^ k) * grid.2 =
          2 * rounded * grid.2 * 10 ^ k := by ring
      _ ≤ (2 * grid.1 + grid.2) * 10 ^ k := by gcongr
      _ = (2 * (m * 2 ^ q) + 10 ^ k) * grid.2 := by
        rw [add_mul, mul_assoc, hgrid]
        ring

/-! ## Seventeen digits -/

/-- A significand is less than `10 ^ 16`, so that the spacing of the grid of
seventeen digits is below that of the numbers; below a power of two, where the
numbers are closer, it is so because `2 ^ 53` is less than `10 ^ 16`. -/
theorem near_of_seventeen {m : Nat} (hpos : 0 < m) (hlt : m < 2 ^ 53) {q : Int}
    {unit value : ℚ} (hunit : 0 < unit) (hlead : unit * 10 ^ 16 ≤ m * 2 ^ q)
    (hfrom : 2 * (m * 2 ^ q) ≤ 2 * value + unit)
    (hto : 2 * value ≤ 2 * (m * 2 ^ q) + unit) : Near m q value := by
  have hspacing : (0 : ℚ) < 2 ^ q := by positivity
  have hsignificand : (m : ℚ) ≤ 2 ^ 53 := by exact_mod_cast hlt.le
  have hfine : unit < 2 ^ q := by nlinarith
  have hhigh : 4 * value < highEnd m * 2 ^ q := by
    have hcast : (highEnd m : ℚ) = 4 * m + 2 := by
      rw [highEnd]
      push_cast
      rfl
    rw [hcast]
    linarith
  have hlow : lowEnd m q * 2 ^ q < 4 * value := by
    unfold lowEnd
    split
    next hpower =>
      have hvalue : (m : ℚ) = 2 ^ 52 := by exact_mod_cast hpower.1
      have hcast : ((4 * m - 1 : Nat) : ℚ) = 4 * m - 1 := by
        rw [Nat.cast_sub (by omega)]
        push_cast
        rfl
      have hhalf : 2 * unit < 2 ^ q := by
        rw [hvalue] at hlead
        linarith
      rw [hcast]
      linarith
    next =>
      have hcast : ((4 * m - 2 : Nat) : ℚ) = 4 * m - 2 := by
        rw [Nat.cast_sub (by omega)]
        push_cast
        rfl
      rw [hcast]
      linarith
  unfold Near
  split
  next => exact ⟨hlow.le, hhigh.le⟩
  next => exact ⟨hlow, hhigh⟩

theorem near_neighbour (tie : Tie) {m : Nat} (hpos : 0 < m) (hlt : m < 2 ^ 53)
    (q : Int) :
    let grid := onGrid m q (leadOf m q - 16)
    Near m q (roundQuotient tie grid.1 grid.2 * 10 ^ (leadOf m q - 16)) := by
  obtain ⟨hfrom, hto⟩ := roundQuotient_onGrid tie m q (leadOf m q - 16)
  have hlead : (10 : ℚ) ^ (leadOf m q - 16) * 10 ^ 16 ≤ m * 2 ^ q := by
    calc
      (10 : ℚ) ^ (leadOf m q - 16) * 10 ^ 16 = 10 ^ leadOf m q := by
        rw [← zpow_natCast, ← zpow_add₀ (by norm_num)]
        congr 1
        norm_num
      _ ≤ m * 2 ^ q := leadOf_le hpos q
  exact near_of_seventeen hpos hlt (by positivity) hlead hfrom hto

theorem neighbour?_near {tie : Tie} {m : Nat} {q k : Int} {decimal : Decimal}
    (hfound : neighbour? tie m q k = some decimal) : Near m q decimal.value := by
  unfold neighbour? at hfound
  dsimp only at hfound
  split at hfound
  next hback =>
    obtain rfl := Option.some.inj hfound
    exact (readsBack_iff m q _ k).mp hback
  next =>
    rw [Option.ite_none_right_eq_some] at hfound
    obtain ⟨hback, hdecimal⟩ := hfound
    obtain rfl := Option.some.inj hdecimal
    exact (readsBack_iff m q _ k).mp hback

theorem exists_neighbour (tie : Tie) {m : Nat} (hpos : 0 < m)
    (hlt : m < 2 ^ 53) (q : Int) :
    ∃ decimal, neighbour? tie m q (leadOf m q - 16) = some decimal := by
  have hback := (readsBack_iff m q _ (leadOf m q - 16)).mpr
    (near_neighbour tie hpos hlt q)
  unfold neighbour?
  dsimp only
  rw [if_pos hback]
  exact ⟨_, rfl⟩

/-- The decimal that is written for a number lies in the interval of the number. -/
theorem shortestDecimal_near (tie : Tie) {m : Nat} (hpos : 0 < m)
    (hlt : m < 2 ^ 53) (q : Int) :
    Near m q (shortestDecimal tie m q).value := by
  unfold shortestDecimal
  dsimp only
  cases hhit : (List.range 17).findSome? fun (n : Nat) =>
      neighbour? tie m q (leadOf m q - n) with
  | none =>
      obtain ⟨decimal, hfound⟩ := exists_neighbour tie hpos hlt q
      have hnone := List.findSome?_eq_none_iff.mp hhit 16 (by decide)
      rw [show ((16 : Nat) : Int) = 16 from rfl, hfound] at hnone
      cases hnone
  | some decimal =>
      obtain ⟨n, _, hfound⟩ := List.exists_of_findSome?_eq_some hhit
      exact neighbour?_near hfound

/-! ## No two numbers share a value -/

theorem Near.ends {m : Nat} {q : Int} {value : ℚ} (hnear : Near m q value) :
    lowEnd m q * 2 ^ q ≤ 4 * value ∧ 4 * value ≤ highEnd m * 2 ^ q := by
  unfold Near at hnear
  split at hnear
  next => exact hnear
  next => exact ⟨hnear.1.le, hnear.2.le⟩

theorem Near.inside {m : Nat} {q : Int} {value : ℚ} (hnear : Near m q value)
    (hodd : m % 2 ≠ 0) :
    lowEnd m q * 2 ^ q < 4 * value ∧ 4 * value < highEnd m * 2 ^ q := by
  unfold Near at hnear
  rwa [if_neg hodd] at hnear

/-- The interval of a number ends where that of a later one begins, or before.  If
both significands are even, there is something in between. -/
theorem highEnd_le_lowEnd {m n : Nat} {q r : Int} (hm : Canonical m q)
    (hn : Canonical n r) (hbefore : q < r ∨ q = r ∧ m < n) :
    (highEnd m : ℚ) * 2 ^ q ≤ lowEnd n r * 2 ^ r ∧
      (m % 2 = 0 → n % 2 = 0 →
        (highEnd m : ℚ) * 2 ^ q < lowEnd n r * 2 ^ r) := by
  have hspacing : (0 : ℚ) < 2 ^ q := by positivity
  rcases hbefore with hless | ⟨rfl, hless⟩
  · have hbeyond : -1074 < r := lt_of_le_of_lt hm.lowest_le hless
    have hfull := hn.full hbeyond
    have hstep : (2 : ℚ) * 2 ^ q ≤ 2 ^ r := by
      rw [mul_comm, ← zpow_add_one₀ (by norm_num)]
      exact zpow_le_zpow_right₀ (by norm_num) (by omega)
    have hlow : highEnd m ≤ 2 * lowEnd n r ∧
        (m % 2 = 0 → highEnd m < 2 * lowEnd n r) := by
      have hlt := hm.lt
      unfold highEnd lowEnd
      constructor
      · split <;> omega
      · intro heven
        split <;> omega
    have hscaled : (2 * lowEnd n r : Nat) * (2 : ℚ) ^ q ≤ lowEnd n r * 2 ^ r := by
      calc
        (2 * lowEnd n r : Nat) * (2 : ℚ) ^ q = lowEnd n r * (2 * 2 ^ q) := by
          push_cast
          ring
        _ ≤ lowEnd n r * 2 ^ r := by gcongr
    refine ⟨le_trans ?_ hscaled, fun heven _ => lt_of_lt_of_le ?_ hscaled⟩
    · gcongr
      exact hlow.1
    · gcongr
      exact hlow.2 heven
  · have hlow : highEnd m ≤ lowEnd n q ∧
        (m % 2 = 0 → n % 2 = 0 → highEnd m < lowEnd n q) := by
      unfold highEnd lowEnd
      constructor
      · split <;> omega
      · intro heven heven'
        split <;> omega
    refine ⟨?_, fun heven heven' => ?_⟩
    · gcongr
      exact hlow.1
    · gcongr
      exact hlow.2 heven heven'

theorem not_near_of_before {m n : Nat} {q r : Int} (hm : Canonical m q)
    (hn : Canonical n r) (hbefore : q < r ∨ q = r ∧ m < n) {value : ℚ}
    (hnear : Near m q value) : ¬Near n r value := by
  intro hother
  obtain ⟨hle, hlt⟩ := highEnd_le_lowEnd hm hn hbefore
  by_cases heven : m % 2 = 0
  · by_cases heven' : n % 2 = 0
    · have := hnear.ends.2
      have := hother.ends.1
      linarith [hlt heven heven']
    · linarith [hnear.ends.2, (hother.inside heven').1]
  · linarith [(hnear.inside heven).2, hother.ends.1]

/-- A value lies in the interval of one number only. -/
theorem Near.unique {m n : Nat} {q r : Int} (hm : Canonical m q)
    (hn : Canonical n r) {value : ℚ} (hnear : Near m q value)
    (hother : Near n r value) : m = n ∧ q = r := by
  rcases lt_trichotomy q r with hless | rfl | hmore
  · exact absurd hother (not_near_of_before hm hn (.inl hless) hnear)
  · rcases lt_trichotomy m n with hless | rfl | hmore
    · exact absurd hother (not_near_of_before hm hn (.inr ⟨rfl, hless⟩) hnear)
    · exact ⟨rfl, rfl⟩
    · exact absurd hnear (not_near_of_before hn hm (.inr ⟨rfl, hmore⟩) hother)
  · exact absurd hnear (not_near_of_before hn hm (.inl hmore) hother)

theorem near_zero (q : Int) : Near 0 q 0 := by
  unfold Near
  rw [if_pos rfl, mul_zero]
  exact ⟨by simp [lowEnd], by positivity⟩

theorem not_near_zero {m : Nat} (hpos : 0 < m) (q : Int) : ¬Near m q 0 := by
  intro hnear
  have hlow : 0 < lowEnd m q := by
    unfold lowEnd
    split <;> omega
  have hscaled : (0 : ℚ) < lowEnd m q * 2 ^ q := by positivity
  linarith [hnear.ends.1]

end Shortest

/-! ## The parts of a finite number -/

namespace Binary64

open Shortest

def isFinite (a : Binary64) : Bool := !a.isUndefined && !a.isInfinite

theorem toNat_field (a : Binary64) :
    (a.magnitude >>> 52).toNat = a.magnitude.toNat / 2 ^ 52 := by
  simp [UInt64.toNat_shiftRight, Nat.shiftRight_eq_div_pow]

theorem toNat_fraction (a : Binary64) :
    (a.magnitude &&& 0x000fffffffffffff).toNat = a.magnitude.toNat % 2 ^ 52 := by
  have hmask := Nat.and_two_pow_sub_one_eq_mod a.magnitude.toNat 52
  simpa using hmask

/-- The parts of a number by its magnitude, whose upper bits are the exponent. -/
theorem decode_eq (a : Binary64) :
    a.decode.1 = a.isNegative ∧
      (a.magnitude.toNat : Int) =
        a.decode.2.1 + (a.decode.2.2 + 1074) * 2 ^ 52 ∧
      -1074 ≤ a.decode.2.2 ∧ a.decode.2.1 < 2 ^ 53 ∧
      (-1074 < a.decode.2.2 → 2 ^ 52 ≤ a.decode.2.1) := by
  unfold decode
  simp only [toNat_field, toNat_fraction, Nat.pow_eq]
  have hsplit := Nat.div_add_mod a.magnitude.toNat (2 ^ 52)
  have hrest := Nat.mod_lt a.magnitude.toNat (y := 2 ^ 52) (by decide)
  split
  next hzero =>
    dsimp only
    exact ⟨rfl, by omega, le_rfl, by omega, by omega⟩
  next hfield =>
    dsimp only
    exact ⟨rfl, by omega, by omega, by omega, by omega⟩

theorem decode_canonical (a : Binary64) :
    Canonical a.decode.2.1 a.decode.2.2 := by
  obtain ⟨_, _, hlowest, hlt, hfull⟩ := a.decode_eq
  exact ⟨hlt, hlowest, hfull⟩

theorem decode_injective : Function.Injective decode := by
  intro a b hdecode
  obtain ⟨hsign, hmagnitude, _⟩ := a.decode_eq
  obtain ⟨hsign', hmagnitude', _⟩ := b.decode_eq
  have hnegative : a.isNegative = b.isNegative := by
    rw [← hsign, ← hsign', hdecode]
  have hsame : a.magnitude.toNat = b.magnitude.toNat := by
    rw [hdecode] at hmagnitude
    omega
  apply rank_injective
  rw [rank, rank, hnegative, hsame]

end Binary64
end FogDispatch
