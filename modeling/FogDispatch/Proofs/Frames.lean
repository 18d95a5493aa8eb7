import FogDispatch.Service.Frame
import Mathlib.Tactic

/-!
# Complete frames

The first frame of some bytes is complete exactly if they start with the frame
of a payload.  A cut frame holds no complete one, and behind a complete one the
bytes make no difference.
-/

namespace FogDispatch

/-! ## Texts and their bytes -/

/-- The bytes that encode a text. -/
def encoding (text : String) : List UInt8 := text.toUTF8.data.toList

theorem textOf?_eq_some {bytes : List UInt8} {text : String} :
    textOf? bytes = some text ↔ encoding text = bytes := by
  unfold textOf? String.fromUTF8?
  constructor
  · intro htext
    split at htext
    next hvalid =>
      obtain rfl := Option.some.inj htext
      rfl
    next => cases htext
  · rintro rfl
    exact dif_pos text.isValidUTF8

theorem encoding_ofList (cs : List Char) :
    encoding (String.ofList cs) = cs.flatMap String.utf8EncodeChar := by
  simp [encoding, String.toUTF8, List.utf8Encode]

theorem encoding_append (front back : String) :
    encoding (front ++ back) = encoding front ++ encoding back := by
  simp [encoding, String.toUTF8]

/-- Only a line end is encoded by bytes that end with a line feed. -/
theorem eq_newline_of_encodeChar {c : Char} {front : List UInt8}
    (hlast : String.utf8EncodeChar c = front ++ [lineFeed]) : c = '\n' := by
  have hfollow : ∀ n : Nat, UInt8.ofNat (n % 64 + 128) ≠ lineFeed := by
    intro n hsame
    have hvalue := congrArg UInt8.toNat hsame
    rw [UInt8.toNat_ofNat'] at hvalue
    have hfeed : lineFeed.toNat = 10 := rfl
    omega
  have hend := congrArg List.getLast? hlast
  rw [List.getLast?_concat] at hend
  unfold String.utf8EncodeChar at hend
  dsimp only at hend
  split at hend
  next hsmall =>
    have hbyte : UInt8.ofNat c.val.toNat = lineFeed := Option.some.inj hend
    have hvalue := congrArg UInt8.toNat hbyte
    rw [UInt8.toNat_ofNat'] at hvalue
    have hfeed : lineFeed.toNat = 10 := rfl
    have hcode : c.val.toNat = 10 := by omega
    exact Char.ext (UInt32.toNat_inj.mp hcode)
  next =>
    split at hend
    next => exact (hfollow _ (Option.some.inj hend)).elim
    next =>
      split at hend
      next => exact (hfollow _ (Option.some.inj hend)).elim
      next => exact (hfollow _ (Option.some.inj hend)).elim

/-- A text whose bytes end with a line feed ends with a line end. -/
theorem eq_append_of_encoding {text : String} {front : List UInt8}
    (htext : encoding text = front ++ [lineFeed]) :
    ∃ before, text = before ++ "\n" ∧ encoding before = front := by
  have hchars := encoding_ofList text.toList
  rw [String.ofList_toList, htext] at hchars
  rcases List.eq_nil_or_concat text.toList with hnil | ⟨rest, c, hlist⟩
  · rw [hnil] at hchars
    exact absurd hchars (by simp)
  · rw [hlist, List.concat_eq_append, List.flatMap_append,
      List.flatMap_singleton] at hchars
    rcases List.eq_nil_or_concat (String.utf8EncodeChar c) with
      hnone | ⟨bytes, last, hbytes⟩
    · exact absurd hnone (String.utf8EncodeChar_ne_nil)
    · rw [hbytes, List.concat_eq_append, ← List.append_assoc] at hchars
      obtain ⟨hfront, hlast⟩ := List.append_inj' hchars rfl
      obtain rfl : lineFeed = last := List.singleton_inj.mp hlast
      rw [List.concat_eq_append] at hbytes
      obtain rfl := eq_newline_of_encodeChar hbytes
      have hnone : bytes = [] := by
        have hsingle : [] ++ [lineFeed] = bytes ++ [lineFeed] := hbytes
        exact (List.append_cancel_right hsingle).symm
      refine ⟨String.ofList rest, ?_, ?_⟩
      · rw [← String.ofList_toList (s := text), hlist,
          List.concat_eq_append, String.ofList_append]
      · rw [encoding_ofList, hfront, hnone, List.append_nil]

@[simp] theorem dropLineEnds_append_newline (cs : List Char) :
    dropLineEnds (cs ++ ['\n']) = dropLineEnds cs := by
  simp [dropLineEnds]

namespace Framing

variable {framing : Framing} {payload rest bytes : List UInt8}

/-! ## Frames of payloads -/

/-- Which payloads have a frame: no more bytes than two bytes can count, or no
line end inside. -/
def Fits (framing : Framing) (payload : List UInt8) : Prop :=
  match framing with
  | .lengthPrefixed => payload.length < 2 ^ 16
  | .line => lineFeed ∉ payload

def frame (framing : Framing) (payload : List UInt8) : List UInt8 :=
  match framing with
  | .lengthPrefixed =>
    UInt8.ofNat (payload.length / 256) :: UInt8.ofNat (payload.length % 256) ::
      payload
  | .line => payload ++ [lineFeed]

theorem split?_frame (hfits : framing.Fits payload) (rest : List UInt8) :
    framing.split? (framing.frame payload ++ rest) = some (payload, rest) := by
  cases framing with
  | lengthPrefixed =>
      have hlength : payload.length < 2 ^ 16 := hfits
      have hcount : 256 * (UInt8.ofNat (payload.length / 256)).toNat +
          (UInt8.ofNat (payload.length % 256)).toNat = payload.length := by
        rw [UInt8.toNat_ofNat', UInt8.toNat_ofNat']
        omega
      simp only [frame, split?, List.cons_append, hcount]
      simp
  | line =>
      simp only [frame, split?, List.append_assoc, List.singleton_append]
      exact splitFirst?_append rest hfits

theorem split?_eq_some :
    framing.split? bytes = some (payload, rest) ↔
      framing.Fits payload ∧ bytes = framing.frame payload ++ rest := by
  constructor
  · intro hsplit
    cases framing with
    | lengthPrefixed =>
        unfold split? at hsplit
        dsimp only at hsplit
        split at hsplit
        next high low tail =>
          split at hsplit
          next hlength =>
            cases hsplit
            have hhigh := high.toNat_lt
            have hlow := low.toNat_lt
            have hpayload : (tail.take (256 * high.toNat + low.toNat)).length =
                256 * high.toNat + low.toNat := List.length_take_of_le hlength
            have hdiv : (256 * high.toNat + low.toNat) / 256 = high.toNat := by
              omega
            have hmod : (256 * high.toNat + low.toNat) % 256 = low.toNat := by
              omega
            constructor
            · rw [Fits, hpayload]
              omega
            · rw [frame, hpayload, hdiv, hmod]
              simp
          next => cases hsplit
        next => cases hsplit
    | line =>
        have hfirst : splitFirst? lineFeed bytes = some (payload, rest) :=
          hsplit
        refine ⟨not_mem_of_splitFirst? hfirst, ?_⟩
        rw [eq_append_of_splitFirst? hfirst, frame, List.append_assoc]
        rfl
  · rintro ⟨hfits, rfl⟩
    exact split?_frame hfits rest

/-- Only the whole of a frame holds a complete frame. -/
theorem split?_of_part {p : List UInt8} (hfits : framing.Fits p)
    (hpart : bytes <+: framing.frame p)
    (hsplit : framing.split? bytes = some (payload, rest)) :
    payload = p ∧ rest = [] ∧ bytes = framing.frame p := by
  obtain ⟨more, hmore⟩ := hpart
  obtain ⟨hfound, rfl⟩ := split?_eq_some.mp hsplit
  have hwhole := split?_frame hfits []
  rw [List.append_nil, ← hmore, List.append_assoc, split?_frame hfound]
    at hwhole
  obtain ⟨hsame, hnothing⟩ := Prod.mk.inj (Option.some.inj hwhole)
  obtain ⟨rfl, rfl⟩ := List.append_eq_nil_iff.mp hnothing
  rw [hsame]
  exact ⟨rfl, rfl, List.append_nil _⟩

theorem split?_append (more : List UInt8)
    (hsplit : framing.split? bytes = some (payload, rest)) :
    framing.split? (bytes ++ more) = some (payload, rest ++ more) := by
  obtain ⟨hfits, rfl⟩ := split?_eq_some.mp hsplit
  rw [List.append_assoc, split?_frame hfits]

end Framing
end FogDispatch
