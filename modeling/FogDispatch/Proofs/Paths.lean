import FogDispatch.Location
import FogDispatch.Proofs.AnswerGrammar

/-!
# Files below a directory

Many texts name the same directory: slashes may be doubled or stand at the end,
and points may stand in between.  The parts of a path settle what it names, and
the parts of a file below a directory are those of the directory and its own
name, however the path of the directory is written.
-/

namespace FogDispatch

section

variable {γ : Type} [DecidableEq γ] {mark : γ}

theorem splitAll_append_mark (front behind : List γ) :
    splitAll mark (front ++ mark :: behind) =
      splitAll mark front ++ splitAll mark behind := by
  induction front with
  | nil => simp [splitAll]
  | cons c rest ih =>
      by_cases hc : c = mark
      · simp [splitAll, hc, ih]
      · obtain ⟨piece, pieces, hrest, hsplit⟩ := splitAll_cons_ne hc rest
        rw [List.cons_append, hsplit, splitAll, if_neg hc, ih, hrest]
        rfl

theorem eq_nil_of_splitAll {cs : List γ} (hsplit : splitAll mark cs = [[]]) :
    cs = [] := by
  have hjoined := intercalate_splitAll mark cs
  rw [hsplit] at hjoined
  exact hjoined.symm

end

namespace Location

/-- What a path opens with. -/
def opening (piece : List Char) : Option PathPart :=
  match piece with
  | [] => some .root
  | ['.'] => some .here
  | piece => part? piece

theorem opening_of_part {piece : List Char} {part : PathPart}
    (hpart : part? piece = some part) : opening piece = some part := by
  unfold opening
  split
  next => cases hpart
  next => cases hpart
  next => exact hpart

theorem parts_of_pieces {path : String} {piece : List Char}
    {rest : List (List Char)}
    (hpieces : splitAll '/' path.toList = piece :: rest)
    (hsome : piece ≠ [] ∨ rest ≠ []) :
    parts path = (opening piece).toList ++ rest.filterMap part? := by
  unfold parts opening
  rw [hpieces]
  split
  next hcons =>
    obtain ⟨rfl, rfl⟩ := List.cons.inj hcons
    have hrest : rest ≠ [] := by simpa using hsome
    simp [hrest]
  next hcons =>
    obtain ⟨rfl, rfl⟩ := List.cons.inj hcons
    rfl
  next hempty hpoint =>
    split
    next => exact absurd rfl (hempty rest)
    next => exact absurd rfl (hpoint rest)
    next => rw [List.filterMap_cons]; cases part? piece <;> rfl

theorem endsWith_slash_iff (path : String) :
    path.endsWith "/" = true ↔ ∃ front, path.toList = front ++ ['/'] := by
  rw [String.endsWith, String.Slice.endsWith_string_iff]
  simp [List.IsSuffix, eq_comm]

section

variable {name : String} {part : PathPart} (hplain : '/' ∉ name.toList)
  (hpart : part? name.toList = some part)

include hplain hpart

/-- What stands behind a slash is named by the parts before it and its own. -/
theorem parts_behind_slash {front : List Char} (path : String)
    (hpath : path.toList = front ++ '/' :: name.toList) :
    ∃ piece rest, splitAll '/' front = piece :: rest ∧
      parts path =
        (opening piece).toList ++ rest.filterMap part? ++ [part] := by
  cases hfront : splitAll '/' front with
  | nil => exact absurd hfront (splitAll_ne_nil '/' front)
  | cons piece rest =>
      have hpieces : splitAll '/' path.toList =
          piece :: (rest ++ [name.toList]) := by
        rw [hpath, splitAll_append_mark, hfront, splitAll_eq_singleton hplain]
        rfl
      refine ⟨piece, rest, rfl, ?_⟩
      rw [parts_of_pieces hpieces (Or.inr (by simp)), List.filterMap_append,
        List.append_assoc]
      simp [hpart]

/-- A file of a directory is named by the parts of the directory and its own
name. -/
theorem parts_join (directory : String) :
    parts (join directory name) = parts directory ++ [part] := by
  have hrelative : name.startsWith "/" = false := by
    rw [String.startsWith_string_eq_false_iff]
    exact fun hbegins => hplain (hbegins.subset (by simp))
  have hsome : name.toList ≠ [] := by
    intro hnone
    rw [hnone] at hpart
    cases hpart
  rw [join, hrelative, if_neg (by simp)]
  split
  next hdirectory =>
    rcases hdirectory with hempty | hslash
    · obtain rfl : directory = "" := String.isEmpty_iff.mp hempty
      have hpieces : splitAll '/' ("" ++ name).toList = [name.toList] := by
        rw [String.toList_append]
        exact splitAll_eq_singleton hplain
      rw [parts_of_pieces hpieces (Or.inl hsome), opening_of_part hpart]
      rfl
    · -- the slash at the end leaves an empty piece, which names nothing
      obtain ⟨front, hfront⟩ := (endsWith_slash_iff directory).mp hslash
      have hpath : (directory ++ name).toList =
          front ++ '/' :: name.toList := by
        rw [String.toList_append, hfront, List.append_assoc]
        rfl
      obtain ⟨piece, rest, hsplit, hparts⟩ :=
        parts_behind_slash hplain hpart _ hpath
      have hpieces : splitAll '/' directory.toList =
          piece :: (rest ++ [[]]) := by
        rw [hfront, splitAll_append_mark, hsplit]
        rfl
      rw [hparts, parts_of_pieces hpieces (Or.inr (by simp)),
        List.filterMap_append]
      simp [part?]
  next hdirectory =>
    have hpath : (directory ++ "/" ++ name).toList =
        directory.toList ++ '/' :: name.toList := by
      simp [String.toList_append]
    obtain ⟨piece, rest, hsplit, hparts⟩ :=
      parts_behind_slash hplain hpart _ hpath
    have hnonempty : piece ≠ [] ∨ rest ≠ [] := by
      by_contra! hnone
      obtain ⟨rfl, rfl⟩ := hnone
      rw [not_or, String.isEmpty_iff, ← String.toList_eq_nil_iff] at hdirectory
      exact hdirectory.1 (eq_nil_of_splitAll hsplit)
    rw [hparts, parts_of_pieces hsplit hnonempty]

end

end Location
end FogDispatch
