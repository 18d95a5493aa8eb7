/-!
# Cutting texts

A sequence cut at a mark, at its first occurrence or at all of them, and the search for a part.  The
mark itself belongs to no piece, and nothing else is lost: a sequence without the mark, the mark and
any other sequence are taken apart again as they were put together.
-/

namespace FogDispatch

variable {γ : Type} [DecidableEq γ]

/-- What stands before and after the first occurrence of a mark. -/
def splitFirst? (mark : γ) : List γ → Option (List γ × List γ)
  | [] => none
  | c :: rest =>
    if c = mark then some ([], rest)
    else (splitFirst? mark rest).map fun (before, after) => (c :: before, after)

/-- The pieces between the occurrences of a mark, at least one. -/
def splitAll (mark : γ) : List γ → List (List γ)
  | [] => [[]]
  | c :: rest =>
    if c = mark then [] :: splitAll mark rest
    else match splitAll mark rest with
      | piece :: pieces => (c :: piece) :: pieces
      | [] => [[c]]

/-- Whether `part` stands somewhere in a sequence as a whole. -/
def isPartOf (part : List γ) : List γ → Bool
  | [] => part.isEmpty
  | c :: rest => part.isPrefixOf (c :: rest) || isPartOf part rest

theorem splitFirst?_append {mark : γ} {before : List γ} (after : List γ) (h : mark ∉ before) :
    splitFirst? mark (before ++ mark :: after) = some (before, after) := by
  induction before with
  | nil => simp [splitFirst?]
  | cons c rest ih =>
    have hc : c ≠ mark := fun e => h (by simp [e])
    have hrest : mark ∉ rest := fun e => h (by simp [e])
    simp [splitFirst?, hc, ih hrest]

theorem eq_append_of_splitFirst? {mark : γ} {cs before after : List γ}
    (h : splitFirst? mark cs = some (before, after)) : cs = before ++ mark :: after := by
  induction cs generalizing before with
  | nil => simp [splitFirst?] at h
  | cons c rest ih =>
    by_cases hc : c = mark
    · simp only [splitFirst?, hc, if_true, Option.some.injEq, Prod.mk.injEq] at h
      simp [← h.1, ← h.2, hc]
    · simp only [splitFirst?, hc, if_false, Option.map_eq_some_iff] at h
      obtain ⟨⟨inner, behind⟩, hinner, heq⟩ := h
      simp only [Prod.mk.injEq] at heq
      simp [← heq.1, ih (heq.2 ▸ hinner)]

theorem not_mem_of_splitFirst? {mark : γ} {cs before after : List γ}
    (h : splitFirst? mark cs = some (before, after)) : mark ∉ before := by
  induction cs generalizing before with
  | nil => simp [splitFirst?] at h
  | cons c rest ih =>
    by_cases hc : c = mark
    · simp only [splitFirst?, hc, if_true, Option.some.injEq, Prod.mk.injEq] at h
      simp [← h.1]
    · simp only [splitFirst?, hc, if_false, Option.map_eq_some_iff] at h
      obtain ⟨⟨inner, behind⟩, hinner, heq⟩ := h
      simp only [Prod.mk.injEq] at heq
      simp [← heq.1, Ne.symm hc, ih (heq.2 ▸ hinner)]

theorem splitFirst?_eq_none {mark : γ} {cs : List γ} :
    splitFirst? mark cs = none ↔ mark ∉ cs := by
  induction cs with
  | nil => simp [splitFirst?]
  | cons c rest ih =>
    by_cases hc : c = mark
    · simp [splitFirst?, hc]
    · simp [splitFirst?, hc, Ne.symm hc, ih]

theorem splitAll_ne_nil (mark : γ) (cs : List γ) : splitAll mark cs ≠ [] := by
  cases cs with
  | nil => simp [splitAll]
  | cons c rest =>
    by_cases hc : c = mark
    · simp [splitAll, hc]
    · simp only [splitAll, hc, if_false]
      cases splitAll mark rest <;> simp

theorem splitAll_eq_singleton {mark : γ} {cs : List γ} (h : mark ∉ cs) :
    splitAll mark cs = [cs] := by
  induction cs with
  | nil => rfl
  | cons c rest ih =>
    have hc : c ≠ mark := fun e => h (by simp [e])
    have hrest : mark ∉ rest := fun e => h (by simp [e])
    simp [splitAll, hc, ih hrest]

theorem splitAll_append {mark : γ} {piece : List γ} (rest : List γ) (h : mark ∉ piece) :
    splitAll mark (piece ++ mark :: rest) = piece :: splitAll mark rest := by
  induction piece with
  | nil => simp [splitAll]
  | cons c tail ih =>
    have hc : c ≠ mark := fun e => h (by simp [e])
    have htail : mark ∉ tail := fun e => h (by simp [e])
    simp [splitAll, hc, ih htail]

end FogDispatch
