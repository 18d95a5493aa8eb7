import FogDispatch.Clock
import Mathlib.Data.Nat.Bitwise
import Mathlib.Tactic

/-!
# The order of clocks

Clocks are compared by a total comparison that is not the comparison of values.
The laws below need nothing of the carrier but that this comparison is
transitive and oriented, and binary floating point satisfies them for every
word, undefined ones included.  No two words are equal in this order, so of two
words that are no later than each other both are the same.
-/

namespace FogDispatch

/-- Words are compared by their rank, an integer. -/
instance : Std.TransCmp (Arith.order : Binary64 → Binary64 → Ordering) :=
  inferInstanceAs (Std.TransCmp (compareOn Binary64.rank))

namespace Binary64

theorem toNat_magnitude (a : Binary64) :
    a.magnitude.toNat = a.bits.toNat % 2 ^ 63 := by
  have hmask := Nat.and_two_pow_sub_one_eq_mod a.bits.toNat 63
  simpa [magnitude] using hmask

theorem isNegative_iff (a : Binary64) :
    a.isNegative = true ↔ 2 ^ 63 ≤ a.bits.toNat := by
  have hlt := a.bits.toNat_lt
  have hsign : a.isNegative = true ↔ a.bits.toNat &&& 2 ^ 63 ≠ 0 := by
    simp [isNegative, ← UInt64.toNat_inj]
  rw [hsign, Nat.and_two_pow, Nat.testBit_eq_decide_div_mod_eq]
  simp only [ne_eq, mul_eq_zero, Bool.toNat_eq_zero, decide_eq_false_iff_not]
  omega

theorem rank_injective : Function.Injective rank := by
  intro a b hrank
  have hbits : a.bits.toNat = b.bits.toNat := by
    have ha := a.bits.toNat_lt
    have hb := b.bits.toNat_lt
    simp only [rank, isNegative_iff, toNat_magnitude] at hrank
    split at hrank <;> split at hrank <;> omega
  rw [mk.injEq, ← UInt64.toNat_inj]
  exact hbits

end Binary64

instance : Std.LawfulEqCmp (Arith.order : Binary64 → Binary64 → Ordering) where
  eq_of_compare {a b} h := by
    have hrank : compare a.rank b.rank = .eq := h
    exact Binary64.rank_injective (Std.LawfulEqCmp.eq_of_compare hrank)

namespace Time

variable {α : Type} [Arith α]

theorem isBy_iff (t u : Time α) : t.isBy u = true ↔ (t.order u).isLE = true := by
  unfold isBy
  cases t.order u <;> simp

theorem isBy_eq_not_isAfter (t u : Time α) : t.isBy u = !t.isAfter u := rfl

theorem isBy_of_isBefore {t u : Time α} (h : t.isBefore u = true) :
    t.isBy u = true := by
  rw [isBy_iff]
  unfold isBefore at h
  cases hcmp : t.order u <;> simp_all

variable [Std.TransCmp (Arith.order : α → α → Ordering)]

instance : Std.TransCmp (Time.order : Time α → Time α → Ordering) where
  eq_swap {t u} := by
    have h : Arith.order t.value u.value = (Arith.order u.value t.value).swap :=
      Std.OrientedCmp.eq_swap
    exact h
  isLE_trans {t u v} htu huv := by
    change (Arith.order t.value v.value).isLE = true
    exact Std.TransCmp.isLE_trans htu huv

@[simp] theorem isBy_refl (t : Time α) : t.isBy t = true := by
  rw [isBy_iff]
  exact Std.ReflCmp.isLE_rfl

theorem isBy_trans {t u v : Time α}
    (htu : t.isBy u = true) (huv : u.isBy v = true) : t.isBy v = true := by
  rw [isBy_iff] at htu huv ⊢
  exact Std.TransCmp.isLE_trans htu huv

theorem isBy_of_not_isBefore {t u : Time α} (h : t.isBefore u = false) :
    u.isBy t = true := by
  have hswap : u.order t = (t.order u).swap := Std.OrientedCmp.eq_swap
  rw [isBy_iff, hswap]
  unfold isBefore at h
  cases hcmp : t.order u <;> simp_all

theorem isBefore_eq_not_isBy (t u : Time α) : t.isBefore u = !u.isBy t := by
  have hswap : u.order t = (t.order u).swap := Std.OrientedCmp.eq_swap
  unfold isBefore isBy
  rw [hswap]
  cases t.order u <;> rfl

theorem isBy_later (t u : Time α) : t.isBy (t.later u) = true := by
  unfold later
  split
  next hafter =>
    have hbefore : t.isBefore u = true := by
      rw [isBefore_eq_not_isBy, isBy_eq_not_isAfter, hafter]
      rfl
    exact isBy_of_isBefore hbefore
  next => exact isBy_refl t

theorem isBefore_of_isBefore_of_isBy {t u v : Time α}
    (htu : t.isBefore u = true) (huv : u.isBy v = true) :
    t.isBefore v = true := by
  unfold isBefore at htu ⊢
  rw [isBy_iff] at huv
  simp only [beq_iff_eq] at htu ⊢
  exact Std.TransCmp.lt_of_lt_of_isLE htu huv

theorem isAfter_of_isBy {limit t u : Time α} (ht : t.isAfter limit = true)
    (htu : t.isBy u = true) : u.isAfter limit = true := by
  by_contra hu
  have hby : u.isBy limit = true := by simpa [isBy_eq_not_isAfter] using hu
  have htlimit := isBy_trans htu hby
  simp [isBy_eq_not_isAfter, ht] at htlimit

section

variable [Std.LawfulEqCmp (Arith.order : α → α → Ordering)]

theorem eq_of_isBy {t u : Time α} (htu : t.isBy u = true)
    (hut : u.isBy t = true) : t = u := by
  rw [isBy_iff] at htu hut
  have horder : t.order u = .eq := Std.OrientedCmp.isLE_antisymm htu hut
  have hvalue : t.value = u.value := Std.LawfulEqCmp.eq_of_compare horder
  cases t
  cases u
  exact congrArg mk hvalue

theorem later_eq_right {t u : Time α} (htu : t.isBy u = true) :
    t.later u = u := by
  unfold later
  split
  next => rfl
  next hnot =>
    apply eq_of_isBy htu
    rw [isBy_eq_not_isAfter]
    simpa using hnot

end

end Time
end FogDispatch
