import FogDispatch.Proofs.Frames
import FogDispatch.Service.Client

/-!
# Streams that end

What an exchange makes of a connection that the service closes, wherever it
cuts the stream and however the stream comes in pieces.  A complete frame gives
its text.  An incomplete frame with a length gives nothing, but a line counts
also without its line end.
-/

namespace FogDispatch

namespace Framing

/-- A stream starts with a complete frame of a text. -/
inductive Carries : Framing → List UInt8 → String → Prop
  | lengthPrefixed {high low : UInt8} {payload rest : List UInt8}
      {text : String}
      (hlength : payload.length = 256 * high.toNat + low.toNat)
      (htext : encoding text = payload) :
      Carries .lengthPrefixed (high :: low :: payload ++ rest) text
  | line {front rest : List UInt8} {text : String}
      (hfirst : lineFeed ∉ front)
      (htext : encoding text = front ++ [lineFeed]) :
      Carries .line (front ++ lineFeed :: rest)
        (String.ofList (dropLineEnds text.toList))

/-- A stream is the start of a line that never ends. -/
structure BreaksOff (framing : Framing) (stream : List UInt8)
    (answer : String) : Prop where
  line : framing = .line
  started : stream ≠ []
  unended : lineFeed ∉ stream
  text : ∃ text, encoding text = stream ∧
    answer = String.ofList (dropLineEnds text.toList)

variable {framing : Framing} {stream : List UInt8} {answer : String}

theorem carries_iff :
    framing.Carries stream answer ↔ ∃ payload rest,
      framing.split? stream = some (payload, rest) ∧
        framing.decode? payload = some answer := by
  constructor
  · intro hcarries
    cases hcarries with
    | @lengthPrefixed high low payload rest text hlength htext =>
        refine ⟨payload, rest, ?_, textOf?_eq_some.mpr htext⟩
        simp [split?, ← hlength]
    | @line front rest text hfirst htext =>
        obtain ⟨before, rfl, hbefore⟩ := eq_append_of_encoding htext
        refine ⟨front, rest, splitFirst?_append rest hfirst, ?_⟩
        rw [decode?, textOf?_eq_some.mpr hbefore, Option.map_some,
          String.toList_append]
        exact congrArg (fun cs => some (String.ofList cs))
          (dropLineEnds_append_newline before.toList).symm
  · rintro ⟨payload, rest, hsplit, hdecode⟩
    obtain ⟨hfits, rfl⟩ := split?_eq_some.mp hsplit
    cases framing with
    | lengthPrefixed =>
        have hlength : payload.length < 2 ^ 16 := hfits
        apply Carries.lengthPrefixed
        · rw [UInt8.toNat_ofNat', UInt8.toNat_ofNat']
          omega
        · exact textOf?_eq_some.mp hdecode
    | line =>
        obtain ⟨before, hbefore, rfl⟩ := Option.map_eq_some_iff.mp hdecode
        have htext : encoding (before ++ "\n") = payload ++ [lineFeed] := by
          rw [encoding_append, textOf?_eq_some.mp hbefore]
          rfl
        have hends : dropLineEnds (before ++ "\n").toList =
            dropLineEnds before.toList := by
          rw [String.toList_append]
          exact dropLineEnds_append_newline before.toList
        have hcarries : Carries .line (payload ++ lineFeed :: rest)
            (String.ofList (dropLineEnds (before ++ "\n").toList)) :=
          .line hfits htext
        rw [hends] at hcarries
        simpa [frame] using hcarries

/-- Without a complete frame only a line that breaks off counts. -/
theorem breaksOff_iff (hcut : framing.split? stream = none) :
    framing.BreaksOff stream answer ↔
      framing.decodeLast? stream = some answer := by
  cases framing with
  | lengthPrefixed =>
      constructor
      · intro hbreaks
        cases hbreaks.line
      · nofun
  | line =>
      have hunended : lineFeed ∉ stream := splitFirst?_eq_none.mp hcut
      constructor
      · rintro ⟨-, hstarted, -, text, htext, rfl⟩
        rw [decodeLast?, if_neg (by simpa using hstarted), decode?,
          textOf?_eq_some.mpr htext]
        rfl
      · intro hdecode
        rw [decodeLast?] at hdecode
        split at hdecode
        next => cases hdecode
        next hstarted =>
          obtain ⟨text, htext, rfl⟩ := Option.map_eq_some_iff.mp hdecode
          exact ⟨rfl, by simpa using hstarted, hunended, text,
            textOf?_eq_some.mp htext, rfl⟩

end Framing

namespace Client

variable {framing : Framing}

/-! ## Pieces of a stream -/

/-- What is received of a stream that comes in pieces: nothing more once a test
holds, and the end behind the last piece. -/
def gather (enough : List UInt8 → Bool) :
    List UInt8 → List (List UInt8) → Received × List (List UInt8)
  | bytes, [] => (⟨bytes, !enough bytes⟩, [])
  | bytes, piece :: pieces =>
    if enough bytes then (⟨bytes, false⟩, piece :: pieces)
    else gather enough (bytes ++ piece) pieces

/-- The pieces that are still to come on the open connection, and those of the
connections behind it. -/
structure Script where
  here : List (List UInt8)
  later : List (List (List UInt8))

/-- The link to a service that sends the scripted pieces on each connection and
closes it behind them. -/
def scripted : Link (StateM Script) Unit where
  connect script :=
    match script.later with
    | [] => (none, script)
    | pieces :: later => (some (), ⟨pieces, later⟩)
  send _ _ := return true
  receive _ enough bytes script :=
    let (received, here) := gather enough bytes script.here
    (some received, { script with here := here })
  within work := work

theorem gather_stream (enough : List UInt8 → Bool) (bytes : List UInt8)
    (pieces : List (List UInt8)) :
    ∃ more, (gather enough bytes pieces).1.bytes ++ more =
        bytes ++ pieces.flatten ∧
      ((gather enough bytes pieces).1.closed = true → more = []) ∧
      ((gather enough bytes pieces).1.closed = false →
        enough (gather enough bytes pieces).1.bytes = true) := by
  induction pieces generalizing bytes with
  | nil => exact ⟨[], by simp [gather]⟩
  | cons piece pieces ih =>
      unfold gather
      split
      next henough =>
        exact ⟨piece ++ pieces.flatten, rfl, nofun, fun _ => henough⟩
      next =>
        obtain ⟨more, hmore, hclosed, hopen⟩ := ih (bytes ++ piece)
        refine ⟨more, ?_, hclosed, hopen⟩
        rw [hmore, List.append_assoc]
        rfl

/-- It makes no difference where the pieces are cut. -/
theorem readAnswer?_gather (pieces : List (List UInt8)) :
    (readAnswer? framing (gather framing.isComplete [] pieces).1).map Prod.fst =
      (readAnswer? framing ⟨pieces.flatten, true⟩).map Prod.fst := by
  obtain ⟨more, hstream, hclosed, hopen⟩ :=
    gather_stream framing.isComplete [] pieces
  rw [List.nil_append] at hstream
  generalize (gather framing.isComplete [] pieces).1 = received at *
  obtain ⟨bytes, closed⟩ := received
  cases closed with
  | true =>
      obtain rfl := hclosed rfl
      rw [← hstream, List.append_nil]
  | false =>
      obtain ⟨⟨payload, rest⟩, hsplit⟩ :=
        Option.isSome_iff_exists.mp (hopen rfl)
      have hwhole := Framing.split?_append more hsplit
      rw [hstream] at hwhole
      simp only [readAnswer?, hsplit, hwhole, Option.map_map]
      rfl

theorem readAnswer?_closed {stream : List UInt8} {answer : String} :
    (readAnswer? framing ⟨stream, true⟩).map Prod.fst = some answer ↔
      framing.Carries stream answer ∨ framing.BreaksOff stream answer := by
  cases hsplit : framing.split? stream with
  | some parts =>
      obtain ⟨payload, rest⟩ := parts
      have hwhole : ¬ framing.BreaksOff stream answer := fun hbreaks => by
        obtain rfl := hbreaks.line
        rw [Framing.split?, splitFirst?_eq_none.mpr hbreaks.unended] at hsplit
        cases hsplit
      rw [or_iff_left hwhole, Framing.carries_iff]
      simp [readAnswer?, hsplit]
  | none =>
      have hcut : ¬ framing.Carries stream answer := fun hcarries => by
        obtain ⟨_, _, hsome, _⟩ := Framing.carries_iff.mp hcarries
        rw [hsplit] at hsome
        cases hsome
      rw [or_iff_right hcut, Framing.breaksOff_iff hsplit]
      simp [readAnswer?, hsplit]

theorem run_exchange (line : String) (pieces : List (List UInt8))
    (later : List (List (List UInt8))) :
    (exchange scripted framing line ⟨(), []⟩).run ⟨pieces, later⟩ =
      ((readAnswer? framing (gather framing.isComplete [] pieces).1).map
        fun (text, unread) => (text, ⟨(), unread⟩),
      ⟨(gather framing.isComplete [] pieces).2, later⟩) :=
  rfl

theorem answers_iff {line : String} {pieces : List (List UInt8)}
    {later : List (List (List UInt8))} {answer : String} :
    (∃ connection script,
      (exchange scripted framing line ⟨(), []⟩).run ⟨pieces, later⟩ =
        (some (answer, connection), script)) ↔
      framing.Carries pieces.flatten answer ∨
        framing.BreaksOff pieces.flatten answer := by
  rw [← readAnswer?_closed, ← readAnswer?_gather, run_exchange]
  constructor
  · rintro ⟨connection, script, hrun⟩
    obtain ⟨found, hfound, hsame⟩ :=
      Option.map_eq_some_iff.mp (Prod.mk.inj hrun).1
    rw [hfound]
    exact congrArg some (Prod.mk.inj hsame).1
  · intro hanswer
    obtain ⟨found, hfound, rfl⟩ := Option.map_eq_some_iff.mp hanswer
    exact ⟨_, _, by rw [hfound]; rfl⟩

/-- What an exchange answers on a new connection whose service sends a stream
and closes: the text of the complete frame at the start, or that of a line that
breaks off.  Without an answer the next attempt takes the next connection. -/
theorem exchange_answer_iff (framing : Framing) (line : String)
    (pieces : List (List UInt8)) (later : List (List (List UInt8))) :
    (∀ answer,
      (∃ connection script,
        (exchange scripted framing line ⟨(), []⟩).run ⟨pieces, later⟩ =
          (some (answer, connection), script)) ↔
        framing.Carries pieces.flatten answer ∨
          framing.BreaksOff pieces.flatten answer) ∧
    ((∀ answer, ¬ framing.Carries pieces.flatten answer ∧
        ¬ framing.BreaksOff pieces.flatten answer) →
      ∀ left, ∃ here,
        (attempts scripted framing line (left + 1) (some ⟨(), []⟩)).run
            ⟨pieces, later⟩ =
          (attempts scripted framing line left none).run ⟨here, later⟩) := by
  refine ⟨fun answer => answers_iff, fun hnone left => ?_⟩
  have hread :
      readAnswer? framing (gather framing.isComplete [] pieces).1 = none := by
    cases hfound : readAnswer? framing
        (gather framing.isComplete [] pieces).1 with
    | none => rfl
    | some found =>
        have hanswer : (readAnswer? framing ⟨pieces.flatten, true⟩).map
            Prod.fst = some found.1 := by
          rw [← readAnswer?_gather, hfound]
          rfl
        obtain ⟨hcarries, hbreaks⟩ := hnone found.1
        exact ((readAnswer?_closed.mp hanswer).elim hcarries hbreaks).elim
  have hattempt :
      (attempt scripted framing line (some ⟨(), []⟩)).run ⟨pieces, later⟩ =
        (none, ⟨(gather framing.isComplete [] pieces).2, later⟩) := by
    have hexchange := @run_exchange framing line pieces later
    rw [hread] at hexchange
    exact hexchange
  refine ⟨(gather framing.isComplete [] pieces).2, ?_⟩
  rw [attempts, StateT.run_bind, hattempt]
  rfl

/-- A decision for node 12 that is cut before its last digit and its line end
is answered as a decision for node 1. -/
theorem cut_decision_accepted :
    (∃ connection script,
      (exchange scripted .line "" ⟨(), []⟩).run ⟨[encoding "0.1,5d1"], []⟩ =
        (some ("0.1,5d1", connection), script)) ∧
    ¬ Framing.line.Carries [encoding "0.1,5d1"].flatten "0.1,5d1" := by
  have hbytes : [encoding "0.1,5d1"].flatten =
      [0x30, 0x2e, 0x31, 0x2c, 0x35, 0x64, 0x31] := rfl
  have hunended : lineFeed ∉ [encoding "0.1,5d1"].flatten := by
    rw [hbytes]
    decide
  constructor
  · refine answers_iff.mpr (.inr ⟨rfl, ?_, hunended, "0.1,5d1", rfl, rfl⟩)
    rw [hbytes]
    exact List.cons_ne_nil _ _
  · intro hcarries
    obtain ⟨payload, rest, hsplit, -⟩ := Framing.carries_iff.mp hcarries
    rw [Framing.split?, splitFirst?_eq_none.mpr hunended] at hsplit
    cases hsplit

end Client
end FogDispatch
