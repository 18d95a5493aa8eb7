import Mathlib.Data.List.Forall2
import Mathlib.Tactic

/-!
# Steps that may fail

Steps that are taken one after the other succeed exactly if each of them does,
and then with their values in order.
-/

namespace FogDispatch

variable {β γ ε : Type}

theorem bind_ok {first : Except ε β} {rest : β → Except ε γ} {result : γ}
    (hrun : (first >>= rest) = .ok result) :
    ∃ value, first = .ok value ∧ rest value = .ok result := by
  cases first with
  | error fault => cases hrun
  | ok value => exact ⟨value, rfl, hrun⟩

variable {f : β → Except ε γ} {items : List β} {values : List γ}

theorem mapM_eq_ok_iff :
    items.mapM f = .ok values ↔
      List.Forall₂ (fun item value => f item = .ok value) items values := by
  induction items generalizing values with
  | nil =>
      rw [List.forall₂_nil_left_iff, List.mapM_nil]
      exact ⟨fun h => (Except.ok.inj h).symm, fun h => by rw [h]; rfl⟩
  | cons item rest ih =>
      rw [List.forall₂_cons_left_iff, List.mapM_cons]
      constructor
      · intro hmap
        obtain ⟨value, hitem, hmap⟩ := bind_ok hmap
        obtain ⟨later, hrest, hmap⟩ := bind_ok hmap
        exact ⟨value, later, hitem, ih.mp hrest, (Except.ok.inj hmap).symm⟩
      · rintro ⟨value, later, hitem, hrest, rfl⟩
        rw [hitem, ih.mpr hrest]
        rfl

theorem mapM_ok (hmap : items.mapM f = .ok values) :
    ∀ item ∈ items, ∃ value, f item = .ok value := by
  have hall := mapM_eq_ok_iff.mp hmap
  clear hmap
  induction hall with
  | nil => simp
  | cons hitem _ ih => exact List.forall_mem_cons.mpr ⟨⟨_, hitem⟩, ih⟩

theorem exists_mapM_ok (hitems : ∀ item ∈ items, ∃ value, f item = .ok value) :
    ∃ values, items.mapM f = .ok values := by
  induction items with
  | nil => exact ⟨[], rfl⟩
  | cons item rest ih =>
      obtain ⟨⟨value, hitem⟩, hrest⟩ := List.forall_mem_cons.mp hitems
      obtain ⟨values, hvalues⟩ := ih hrest
      refine ⟨value :: values, ?_⟩
      rw [List.mapM_cons, hitem, hvalues]
      rfl

/-- Steps that fail end with the first fault. -/
theorem mapM_eq_error {fault : ε} (hmap : items.mapM f = .error fault) :
    ∃ earlier item later, items = earlier ++ item :: later ∧
      (∀ other ∈ earlier, ∃ value, f other = .ok value) ∧
      f item = .error fault := by
  induction items with
  | nil => cases hmap
  | cons item rest ih =>
      rw [List.mapM_cons] at hmap
      cases hitem : f item with
      | error broken =>
          rw [hitem] at hmap
          cases hmap
          exact ⟨[], item, rest, rfl, List.forall_mem_nil _, hitem⟩
      | ok value =>
          cases hrest : rest.mapM f with
          | error broken =>
              rw [hitem, hrest] at hmap
              cases hmap
              obtain ⟨earlier, other, later, hsplit, hearlier, hother⟩ :=
                ih hrest
              exact ⟨item :: earlier, other, later, congrArg (item :: ·) hsplit,
                List.forall_mem_cons.mpr ⟨⟨value, hitem⟩, hearlier⟩, hother⟩
          | ok values =>
              rw [hitem, hrest] at hmap
              cases hmap

end FogDispatch
