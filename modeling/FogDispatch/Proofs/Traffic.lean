import FogDispatch.Proofs.Frames
import FogDispatch.Service.Client

/-!
# Traffic with an orderly service

An orderly service answers the lines of a connection one after the other, each
with one complete frame, and closes a connection only between two answers.  An
answer may be late, or not come at all, and any operation of the network may
fail or run out of time.
-/

namespace FogDispatch

namespace Framing

variable {framing : Framing}

def frames (framing : Framing) (payloads : List (List UInt8)) : List UInt8 :=
  payloads.flatMap framing.frame

theorem frames_append (front back : List (List UInt8)) :
    framing.frames (front ++ back) =
      framing.frames front ++ framing.frames back :=
  List.flatMap_append

@[simp] theorem frames_singleton (payload : List UInt8) :
    framing.frames [payload] = framing.frame payload :=
  List.flatMap_singleton framing.frame payload

theorem frames_part {front all : List (List UInt8)}
    (hpart : front <+: all) :
    framing.frames front <+: framing.frames all := by
  obtain ⟨back, rfl⟩ := hpart
  exact ⟨framing.frames back, (frames_append front back).symm⟩

/-- What comes behind some frames, if it ends with a frame, is nothing or the
whole of the one next frame. -/
theorem frames_next {old given : List (List UInt8)} {payload bytes : List UInt8}
    (hgiven : given <+: old ++ [payload])
    (hwhole : framing.frames old ++ bytes = framing.frames given) :
    bytes = [] ∨ bytes = framing.frame payload := by
  rcases List.prefix_concat_iff.mp hgiven with rfl | hearlier
  · rw [frames_append, frames_singleton] at hwhole
    exact .inr (List.append_cancel_left hwhole)
  · have hshort := (@frames_part framing _ _ hearlier).length_le
    rw [← hwhole, List.length_append] at hshort
    exact .inl (List.length_eq_zero_iff.mp (by omega))

end Framing

/-! ## What passes -/

/-- What has passed between a client and its service. -/
structure Traffic (κ : Type) where
  /-- The copies of request lines that left, each with its connection. -/
  sent : List (κ × String)
  /-- The payloads that the service has answered on a connection. -/
  answers : κ → List (List UInt8)
  /-- The bytes of a connection that were received. -/
  arrived : κ → List UInt8

namespace Traffic

variable {κ : Type}

/-- The service takes its time, and the given lines leave. -/
structure Moves (before after : Traffic κ) (lines : List (κ × String)) :
    Prop where
  sent : after.sent = before.sent ++ lines
  answers (connection : κ) :
    before.answers connection <+: after.answers connection

/-- Bytes come behind the unread ones of a connection, which does not end inside
an answer. -/
structure Receives (before after : Traffic κ) (framing : Framing)
    (connection : κ) (unread : List UInt8) (received : Received) : Prop where
  behind : ∃ bytes, received.bytes = unread ++ bytes ∧
    after.arrived connection = before.arrived connection ++ bytes
  whole : received.closed = true →
    ∃ given, given <+: after.answers connection ∧
      after.arrived connection = framing.frames given

variable {before between after : Traffic κ}
  {lines more : List (κ × String)}

theorem Moves.refl (traffic : Traffic κ) : traffic.Moves traffic [] where
  sent := (List.append_nil _).symm
  answers _ := List.prefix_rfl

theorem Moves.trans (hfirst : Moves before between lines)
    (hsecond : Moves between after more) :
    Moves before after (lines ++ more) where
  sent := by rw [hsecond.sent, hfirst.sent, List.append_assoc]
  answers connection :=
    (hfirst.answers connection).trans (hsecond.answers connection)

theorem Receives.of_kept {framing : Framing} {connection : κ}
    {unread : List UInt8} {received : Received}
    (hreceives : between.Receives after framing connection unread received)
    (hkept : between.arrived connection = before.arrived connection) :
    before.Receives after framing connection unread received where
  behind := hkept ▸ hreceives.behind
  whole := hreceives.whole

variable [DecidableEq κ]

/-- How many of the lines were sent on a connection. -/
def asked (connection : κ) (lines : List (κ × String)) : Nat :=
  lines.countP fun copy => copy.1 = connection

@[simp] theorem asked_append (connection : κ) :
    asked connection (lines ++ more) =
      asked connection lines + asked connection more :=
  List.countP_append

@[simp] theorem asked_singleton (connection : κ) (line : String) :
    asked connection [(connection, line)] = 1 := by
  simp [asked]

/-- A text answers the copy that left on a connection after the given ones. -/
def Answered (traffic : Traffic κ) (framing : Framing)
    (earlier : List (κ × String)) (connection : κ) (text : String) : Prop :=
  ∃ payload,
    (traffic.answers connection)[asked connection earlier]? = some payload ∧
      framing.decode? payload = some text

/-- Answers come in the order of the lines, one for each, in complete frames. -/
structure Orderly (framing : Framing) (traffic : Traffic κ) : Prop where
  answered (connection : κ) :
    (traffic.answers connection).length ≤ asked connection traffic.sent
  fits (connection : κ) :
    ∀ payload ∈ traffic.answers connection, framing.Fits payload
  arrived (connection : κ) :
    traffic.arrived connection <+: framing.frames (traffic.answers connection)

end Traffic

/-- A link to an orderly service: what its operations may do to the traffic.
Time runs out in an operation that gives nothing. -/
structure Link.Reaches {σ κ : Type} [DecidableEq κ]
    (link : Link (OptionT (StateM σ)) κ) (framing : Framing)
    (traffic : σ → Traffic κ) : Prop where
  /-- A new connection has seen no line and no byte. -/
  connect {s t : σ} {result : Option (Option κ)}
    (horderly : (traffic s).Orderly framing)
    (hrun : link.connect.run.run s = (result, t)) :
    (traffic t).Orderly framing ∧ (traffic s).Moves (traffic t) [] ∧
      ∀ connection, result = some (some connection) →
        Traffic.asked connection (traffic t).sent = 0 ∧
          (traffic t).arrived connection = []
  /-- A line whose sending fails may have left all the same. -/
  send {s t : σ} {result : Option Bool} {connection : κ} {line : String}
    (horderly : (traffic s).Orderly framing)
    (hrun : (link.send connection line).run.run s = (result, t)) :
    (traffic t).Orderly framing ∧
      (traffic t).arrived connection = (traffic s).arrived connection ∧
      ((traffic s).Moves (traffic t) [(connection, line)] ∨
        result ≠ some true ∧ (traffic s).Moves (traffic t) [])
  receive {s t : σ} {result : Option (Option Received)} {connection : κ}
    {enough : List UInt8 → Bool} {unread : List UInt8}
    (horderly : (traffic s).Orderly framing)
    (hrun : (link.receive connection enough unread).run.run s = (result, t)) :
    (traffic t).Orderly framing ∧ (traffic s).Moves (traffic t) [] ∧
      ∀ received, result = some (some received) →
        (traffic s).Receives (traffic t) framing connection unread received
  /-- Work whose time runs out has failed. -/
  within {β : Type} (work : OptionT (StateM σ) (Option β)) (s : σ) :
    (link.within work).run.run s =
      (some (work.run.run s).1.join, (work.run.run s).2)

namespace Traffic

variable {κ : Type} [DecidableEq κ] {framing : Framing}
  {before after traffic : Traffic κ} {connection : Connection κ}

/-! ## Connections that wait for nothing -/

/-- Every line of an open connection is answered, and every answer is read. -/
structure Settled (framing : Framing) (traffic : Traffic κ)
    (connection : Connection κ) : Prop where
  unread : connection.unread = []
  answered : (traffic.answers connection.handle).length =
    asked connection.handle traffic.sent
  arrived : traffic.arrived connection.handle =
    framing.frames (traffic.answers connection.handle)

theorem Orderly.settled {handle : κ} (horderly : traffic.Orderly framing)
    (hnew : asked handle traffic.sent = 0)
    (harrived : traffic.arrived handle = []) :
    traffic.Settled framing ⟨handle, []⟩ := by
  have hnone : traffic.answers handle = [] := by
    have hanswered := horderly.answered handle
    exact List.length_eq_zero_iff.mp (by omega)
  exact
    { unread := rfl
      answered := by rw [hnone, hnew, List.length_nil]
      arrived := by rw [hnone, harrived]; rfl }

theorem Settled.pause (hsettled : before.Settled framing connection)
    (horderly : after.Orderly framing) (hmoves : before.Moves after [])
    (harrived : after.arrived connection.handle =
      before.arrived connection.handle) :
    after.Settled framing connection := by
  have hsent : after.sent = before.sent := by
    rw [hmoves.sent, List.append_nil]
  have hanswers : before.answers connection.handle =
      after.answers connection.handle := by
    apply (hmoves.answers connection.handle).eq_of_length_le
    rw [hsettled.answered, ← hsent]
    exact horderly.answered connection.handle
  exact
    { unread := hsettled.unread
      answered := by rw [← hanswers, hsettled.answered, hsent]
      arrived := by rw [harrived, hsettled.arrived, hanswers] }

end Traffic

namespace Client

variable {framing : Framing} {bytes : List UInt8} {closed : Bool}
  {text : String} {unread : List UInt8}

/-! ## Reading one answer -/

theorem readAnswer?_nil : readAnswer? framing ⟨[], closed⟩ = none := by
  cases framing <;> cases closed <;> rfl

/-- Of a frame that arrives only its own text can be read, and only as a
whole. -/
theorem readAnswer?_of_part {payload : List UInt8}
    (hfits : framing.Fits payload) (hpart : bytes <+: framing.frame payload)
    (hclosed : closed = true → bytes = [] ∨ bytes = framing.frame payload)
    (hread : readAnswer? framing ⟨bytes, closed⟩ = some (text, unread)) :
    bytes = framing.frame payload ∧ framing.decode? payload = some text ∧
      unread = [] := by
  cases hsplit : framing.split? bytes with
  | some parts =>
      obtain ⟨found, rest⟩ := parts
      obtain ⟨rfl, rfl, hwhole⟩ :=
        Framing.split?_of_part hfits hpart hsplit
      simp only [readAnswer?, hsplit, Option.map_eq_some_iff] at hread
      obtain ⟨found, hdecode, heq⟩ := hread
      cases heq
      exact ⟨hwhole, hdecode, rfl⟩
  | none =>
      have hend : closed = true := by
        cases closed with
        | true => rfl
        | false => simp [readAnswer?, hsplit] at hread
      rcases hclosed hend with rfl | rfl
      · rw [readAnswer?_nil] at hread
        cases hread
      · have hwhole := Framing.split?_frame hfits []
        rw [List.append_nil, hsplit] at hwhole
        cases hwhole

end Client

namespace Traffic

variable {κ : Type} [DecidableEq κ] {framing : Framing} {traffic : Traffic κ}
  {handle : κ} {old : List (List UInt8)} {bytes : List UInt8}

/-- What arrives behind the old answers belongs to one new answer. -/
theorem Orderly.next_answer (horderly : traffic.Orderly framing)
    (hold : old <+: traffic.answers handle)
    (hasked : asked handle traffic.sent ≤ old.length + 1)
    (harrived : traffic.arrived handle = framing.frames old ++ bytes)
    (hsome : bytes ≠ []) :
    ∃ payload, traffic.answers handle = old ++ [payload] ∧
      bytes <+: framing.frame payload := by
  obtain ⟨new, hnew⟩ := hold
  have hframes := horderly.arrived handle
  rw [harrived, ← hnew, Framing.frames_append,
    List.prefix_append_right_inj] at hframes
  have hcount := horderly.answered handle
  rw [← hnew, List.length_append] at hcount
  match new with
  | [] => exact (hsome (List.prefix_nil.mp hframes)).elim
  | [payload] =>
      rw [Framing.frames_singleton] at hframes
      exact ⟨payload, hnew.symm, hframes⟩
  | _ :: _ :: _ =>
      rw [List.length_cons, List.length_cons] at hcount
      omega

end Traffic
end FogDispatch
