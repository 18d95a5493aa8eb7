import FogDispatch.Proofs.Traffic

/-!
# Requests and their answers

Between two requests an open connection waits for nothing, so the next bytes on
it answer the next line.  An attempt that fails takes its connection with it,
and with the connection every answer that is still to come there.
-/

namespace FogDispatch.Client

variable {σ κ : Type} {s t : σ} {line : String}

theorem of_run_bind {β γ : Type} {work : OptionT (StateM σ) β}
    {next : β → OptionT (StateM σ) γ} {result : Option γ}
    (hrun : (work >>= next).run.run s = (result, t)) :
    (work.run.run s = (none, t) ∧ result = none) ∨
      ∃ value u, work.run.run s = (some value, u) ∧
        (next value).run.run u = (result, t) := by
  rw [OptionT.run_bind, Option.elimM, StateT.run_bind] at hrun
  cases hwork : work.run.run s with
  | mk value u =>
      rw [hwork] at hrun
      cases value with
      | none =>
          cases hrun
          exact .inl ⟨rfl, rfl⟩
      | some value => exact .inr ⟨value, u, rfl, hrun⟩

theorem run_bind {β γ : Type} {work : OptionT (StateM σ) β} {value : β}
    (next : β → OptionT (StateM σ) γ)
    (hwork : work.run.run s = (some value, t)) :
    (work >>= next).run.run s = (next value).run.run t := by
  rw [OptionT.run_bind, Option.elimM, StateT.run_bind, hwork]
  rfl

variable {link : Link (OptionT (StateM σ)) κ} {framing : Framing}
  {connection : Connection κ}

/-! ## Attempts that fail -/

/-- So many attempts fail, one behind the other. -/
inductive Failures (link : Link (OptionT (StateM σ)) κ) (framing : Framing)
    (line : String) :
    Nat → Option (Connection κ) × σ → Option (Connection κ) × σ → Prop
  | nil (here : Option (Connection κ) × σ) :
      Failures link framing line 0 here here
  | cons {count : Nat} {kept : Option (Connection κ)} {s t : σ}
      {final : Option (Connection κ) × σ}
      (hattempt :
        (attempt link framing line kept).run.run s = (some none, t))
      (hrest : Failures link framing line count (none, t) final) :
      Failures link framing line (count + 1) (kept, s) final

/-- The attempt behind so many failed ones gives a text. -/
def Succeeds (link : Link (OptionT (StateM σ)) κ) (framing : Framing)
    (line : String) (failed : Nat) (kept : Option (Connection κ)) (s : σ)
    (text : String) (left : Connection κ) (t : σ) : Prop :=
  ∃ between u,
    Failures link framing line failed (kept, s) (between, u) ∧
      (attempt link framing line between).run.run u =
        (some (some (text, left)), t)

theorem Failures.attempts {count : Nat}
    {first last : Option (Connection κ) × σ}
    (hfailures : Failures link framing line count first last) (more : Nat) :
    (attempts link framing line (more + count) first.1).run.run first.2 =
      (attempts link framing line more last.1).run.run last.2 := by
  induction hfailures with
  | nil => rfl
  | cons hattempt _ ih => exact (run_bind _ hattempt).trans ih

theorem Succeeds.attempts {failed left : Nat} {text : String}
    {kept : Option (Connection κ)}
    (hsucceeds : Succeeds link framing line failed kept s text connection t)
    (hfailed : failed < left) :
    (attempts link framing line left kept).run.run s =
      (some (some text, some connection), t) := by
  obtain ⟨between, u, hfailures, hattempt⟩ := hsucceeds
  obtain ⟨more, rfl⟩ := Nat.exists_eq_add_of_le' hfailed
  have hrun := hfailures.attempts (more + 1)
  rw [Nat.add_right_comm] at hrun
  exact hrun.trans (run_bind _ hattempt)

theorem run_request {client : Client κ} {answer : Option String}
    {after : Option (Connection κ)}
    (hrun : (attempts link client.framing line client.maxAttempts
      client.connection).run.run s = (some (answer, after), t)) :
    (request link line client).run.run s =
      (some (answer.elim (.error (.noAnswer client.maxAttempts)) .ok,
        { client with connection := after }), t) := by
  refine (run_bind _ hrun).trans ?_
  cases answer <;> rfl

variable [DecidableEq κ] {traffic : σ → Traffic κ}
  {before after : Traffic κ}

/-! ## One attempt -/

/-- What may come of an attempt. -/
structure Attempted (framing : Framing) (line : String)
    (before after : Traffic κ) (answer : Option (String × Connection κ)) :
    Prop where
  orderly : after.Orderly framing
  copies : ∃ handles : List κ, handles.length ≤ 1 ∧
    before.Moves after (handles.map fun handle => (handle, line))
  answered (text : String) (connection : Connection κ)
    (hanswer : answer = some (text, connection)) :
    before.Moves after [(connection.handle, line)] ∧
      after.Settled framing connection ∧
      after.Answered framing before.sent connection.handle text

theorem Attempted.failed {handle : κ} (horderly : after.Orderly framing)
    (hmoves : before.Moves after [(handle, line)] ∨ before.Moves after []) :
    Attempted framing line before after none where
  orderly := horderly
  copies := by
    rcases hmoves with hone | hnone
    · exact ⟨[handle], Nat.le_refl 1, hone⟩
    · exact ⟨[], Nat.zero_le 1, hnone⟩
  answered := nofun

/-- What is read behind a line on a settled connection answers that line, and
the connection is settled again. -/
theorem answered_of_received {received : Received} {text : String}
    {unread : List UInt8}
    (hsettled : before.Settled framing connection)
    (hmoves : before.Moves after [(connection.handle, line)])
    (horderly : after.Orderly framing)
    (hreceives : before.Receives after framing connection.handle
      connection.unread received)
    (hread : readAnswer? framing received = some (text, unread)) :
    after.Settled framing { connection with unread := unread } ∧
      after.Answered framing before.sent connection.handle text := by
  obtain ⟨⟨bytes, hbytes, harrived⟩, hclosed⟩ := hreceives
  obtain ⟨all, closed⟩ := received
  obtain rfl : all = bytes := by
    rw [hsettled.unread] at hbytes
    exact hbytes
  have hasked : Traffic.asked connection.handle after.sent =
      (before.answers connection.handle).length + 1 := by
    rw [hmoves.sent, Traffic.asked_append, Traffic.asked_singleton,
      hsettled.answered]
  rw [hsettled.arrived] at harrived
  have hsome : all ≠ [] := by
    rintro rfl
    rw [readAnswer?_nil] at hread
    cases hread
  -- Before the line left there were as many answers as lines, so all that has
  -- arrived since then belongs to the answer of this line.
  obtain ⟨payload, hanswers, hpart⟩ := horderly.next_answer
    (hmoves.answers connection.handle) hasked.le harrived hsome
  have hfits : framing.Fits payload := by
    apply horderly.fits connection.handle
    rw [hanswers]
    exact List.mem_append_right _ (List.mem_singleton_self payload)
  obtain ⟨hwhole, hdecode, rfl⟩ :=
    readAnswer?_of_part hfits hpart (fun hend => by
      obtain ⟨given, hgiven, hends⟩ := hclosed hend
      rw [hanswers] at hgiven
      exact Framing.frames_next hgiven (harrived.symm.trans hends)) hread
  refine ⟨⟨rfl, ?_, ?_⟩, payload, ?_, hdecode⟩
  · rw [hanswers, hasked, List.length_append, List.length_singleton]
  · rw [harrived, hanswers, hwhole, Framing.frames_append,
      Framing.frames_singleton]
  · rw [hanswers, ← hsettled.answered, List.getElem?_concat_length]

theorem exchange_attempted (hreaches : link.Reaches framing traffic)
    (horderly : (traffic s).Orderly framing)
    (hsettled : (traffic s).Settled framing connection)
    {result : Option (Option (String × Connection κ))}
    (hrun : (exchange link framing line connection).run.run s = (result, t)) :
    Attempted framing line (traffic s) (traffic t) result.join := by
  obtain ⟨hsend, rfl⟩ | ⟨sent, u, hsend, hrest⟩ := of_run_bind hrun
  · obtain ⟨hafter, -, hleft⟩ := hreaches.send horderly hsend
    exact .failed hafter (hleft.imp_right And.right)
  obtain ⟨hbetween, hkept, hleft⟩ := hreaches.send horderly hsend
  cases sent with
  | false =>
      cases hrest
      exact .failed hbetween (hleft.imp_right And.right)
  | true =>
      have hline : (traffic s).Moves (traffic u) [(connection.handle, line)] :=
        hleft.resolve_right fun hnot => hnot.1 rfl
      obtain ⟨hreceive, rfl⟩ | ⟨received, v, hreceive, hdone⟩ :=
        of_run_bind hrest
      · obtain ⟨hafter, hquiet, -⟩ := hreaches.receive hbetween hreceive
        exact .failed hafter (.inl (hline.trans hquiet))
      obtain ⟨hafter, hquiet, harrives⟩ := hreaches.receive hbetween hreceive
      have hmoves := hline.trans hquiet
      cases received with
      | none =>
          cases hdone
          exact .failed hafter (.inl hmoves)
      | some received =>
          cases hdone
          have hreceives := (harrives received rfl).of_kept hkept
          exact
            { orderly := hafter
              copies := ⟨[connection.handle], Nat.le_refl 1, hmoves⟩
              answered := fun text left hanswer => by
                obtain ⟨⟨text, unread⟩, hread, heq⟩ :=
                  Option.map_eq_some_iff.mp hanswer
                cases heq
                exact ⟨hmoves, answered_of_received hsettled hmoves hafter
                  hreceives hread⟩ }

theorem reconnect_settled (hreaches : link.Reaches framing traffic)
    (horderly : (traffic s).Orderly framing)
    {kept : Option (Connection κ)}
    (hsettled : ∀ connection, kept = some connection →
      (traffic s).Settled framing connection)
    {result : Option (Option (Connection κ))}
    (hrun : (reconnect link kept).run.run s = (result, t)) :
    (traffic t).Orderly framing ∧ (traffic s).Moves (traffic t) [] ∧
      ∀ connection, result = some (some connection) →
        (traffic t).Settled framing connection := by
  cases kept with
  | some connection =>
      cases hrun
      refine ⟨horderly, .refl _, ?_⟩
      rintro connection heq
      cases heq
      exact hsettled connection rfl
  | none =>
      obtain ⟨hconnect, rfl⟩ | ⟨handle, u, hconnect, hdone⟩ :=
        of_run_bind hrun
      · obtain ⟨hafter, hmoves, -⟩ := hreaches.connect horderly hconnect
        exact ⟨hafter, hmoves, nofun⟩
      · obtain ⟨hafter, hmoves, hnew⟩ := hreaches.connect horderly hconnect
        cases hdone
        refine ⟨hafter, hmoves, fun connection heq => ?_⟩
        obtain ⟨handle, rfl, rfl⟩ :=
          Option.map_eq_some_iff.mp (Option.some.inj heq)
        obtain ⟨hnone, hempty⟩ := hnew handle rfl
        exact hafter.settled hnone hempty

theorem attempt_attempted (hreaches : link.Reaches framing traffic)
    (line : String) (horderly : (traffic s).Orderly framing)
    {kept : Option (Connection κ)}
    (hsettled : ∀ connection, kept = some connection →
      (traffic s).Settled framing connection) :
    ∃ answer t,
      (attempt link framing line kept).run.run s = (some answer, t) ∧
        Attempted framing line (traffic s) (traffic t) answer := by
  refine ⟨_, _, hreaches.within _ s, ?_⟩
  generalize hwork : StateT.run _ s = done
  obtain ⟨result, t⟩ := done
  obtain ⟨hconnect, rfl⟩ | ⟨found, u, hconnect, hrest⟩ := of_run_bind hwork
  · obtain ⟨hafter, hmoves, -⟩ :=
      reconnect_settled hreaches horderly hsettled hconnect
    exact ⟨hafter, ⟨[], Nat.zero_le 1, hmoves⟩, nofun⟩
  obtain ⟨hbetween, hquiet, hopen⟩ :=
    reconnect_settled hreaches horderly hsettled hconnect
  cases found with
  | none =>
      cases hrest
      exact ⟨hbetween, ⟨[], Nat.zero_le 1, hquiet⟩, nofun⟩
  | some connection =>
      obtain ⟨hafter, ⟨handles, hfew, hmoves⟩, hanswered⟩ :=
        exchange_attempted hreaches hbetween (hopen connection rfl) hrest
      refine ⟨hafter, ⟨handles, hfew, hquiet.trans hmoves⟩, ?_⟩
      intro text left hanswer
      obtain ⟨hline, hsettled, hpaired⟩ := hanswered text left hanswer
      have hsent : (traffic u).sent = (traffic s).sent := by
        rw [hquiet.sent, List.append_nil]
      rw [hsent] at hpaired
      exact ⟨hquiet.trans hline, hsettled, hpaired⟩

/-! ## One attempt after the other -/

/-- What so many attempts come to. -/
structure Tried (link : Link (OptionT (StateM σ)) κ)
    (framing : Framing) (traffic : σ → Traffic κ) (line : String) (left : Nat)
    (kept : Option (Connection κ)) (s : σ) (answer : Option String)
    (after : Option (Connection κ)) (t : σ) (handles : List κ) : Prop where
  orderly : (traffic t).Orderly framing
  settled (connection : Connection κ) (hafter : after = some connection) :
    (traffic t).Settled framing connection
  few : handles.length ≤ left
  moves : (traffic s).Moves (traffic t)
    (handles.map fun handle => (handle, line))
  exhausted (hanswer : answer = none) :
    Failures link framing line left (kept, s) (after, t)
  first (text : String) (hanswer : answer = some text) :
    ∃ failed < left, ∃ connection,
      Succeeds link framing line failed kept s text connection t
  paired (text : String) (hanswer : answer = some text) :
    ∃ earlier handle, handles = earlier ++ [handle] ∧
      (traffic t).Answered framing
        ((traffic s).sent ++ earlier.map fun handle => (handle, line))
        handle text

theorem attempts_tried (hreaches : link.Reaches framing traffic) (left : Nat) :
    ∀ (kept : Option (Connection κ)) (s : σ),
      (traffic s).Orderly framing →
      (∀ connection, kept = some connection →
        (traffic s).Settled framing connection) →
      ∃ answer after t handles,
        (attempts link framing line left kept).run.run s =
            (some (answer, after), t) ∧
          Tried link framing traffic line left kept s answer after t
            handles := by
  induction left with
  | zero =>
      intro kept s horderly hsettled
      exact ⟨none, kept, s, [], rfl,
        { orderly := horderly
          settled := hsettled
          few := Nat.le_refl 0
          moves := .refl _
          exhausted := fun _ => .nil _
          first := nofun
          paired := nofun }⟩
  | succ left ih =>
      intro kept s horderly hsettled
      obtain ⟨answer, u, hattempt, hattempted⟩ :=
        attempt_attempted hreaches line horderly hsettled
      cases answer with
      | some found =>
          obtain ⟨text, connection⟩ := found
          obtain ⟨hmoves, hkept, hanswered⟩ :=
            hattempted.answered text connection rfl
          refine ⟨some text, some connection, u, [connection.handle],
            run_bind _ hattempt, ?_⟩
          exact
            { orderly := hattempted.orderly
              settled := fun _ hsame => Option.some.inj hsame ▸ hkept
              few := Nat.le_add_left 1 left
              moves := hmoves
              exhausted := nofun
              first := fun _ hsame => Option.some.inj hsame ▸
                ⟨0, Nat.zero_lt_succ left, connection, kept, s, .nil _,
                  hattempt⟩
              paired := fun _ hsame => Option.some.inj hsame ▸
                ⟨[], connection.handle, rfl, by
                  rw [List.map_nil, List.append_nil]
                  exact hanswered⟩ }
      | none =>
          obtain ⟨handles, hfew, hmoves⟩ := hattempted.copies
          -- The next attempt starts without a connection: nothing that still
          -- comes on the old one is ever read.
          obtain ⟨answer, after, t, more, hrun, htried⟩ :=
            ih none u hattempted.orderly nofun
          refine ⟨answer, after, t, handles ++ more,
            (run_bind _ hattempt).trans hrun, ?_⟩
          exact
            { orderly := htried.orderly
              settled := htried.settled
              few := by
                have hmore := htried.few
                rw [List.length_append]
                omega
              moves := by
                rw [List.map_append]
                exact hmoves.trans htried.moves
              exhausted := fun hnone =>
                .cons hattempt (htried.exhausted hnone)
              first := fun text hsome => by
                obtain ⟨failed, hfailed, connection, between, v, hfailures,
                  hlast⟩ := htried.first text hsome
                exact ⟨failed + 1, Nat.succ_lt_succ hfailed, connection,
                  between, v, .cons hattempt hfailures, hlast⟩
              paired := fun text hsome => by
                obtain ⟨earlier, handle, rfl, hanswered⟩ :=
                  htried.paired text hsome
                refine ⟨handles ++ earlier, handle,
                  (List.append_assoc _ _ _).symm, ?_⟩
                rw [hmoves.sent] at hanswered
                rw [List.map_append, ← List.append_assoc]
                exact hanswered }

/-! ## One request after the other -/

/-- A client between two requests, with the world around it. -/
inductive Reached (link : Link (OptionT (StateM σ)) κ)
    (traffic : σ → Traffic κ) (plan : PolicyPlan) : Client κ → σ → Prop
  | opened {s t : σ} {client : Client κ}
      (horderly : (traffic s).Orderly plan.framing)
      (hrun : (start link plan).run.run s = (some (.ok client), t)) :
      Reached link traffic plan client t
  | asked {s t : σ} {client after : Client κ} {line : String}
      {outcome : Except Fault String}
      (hreached : Reached link traffic plan client s)
      (hrun : (request link line client).run.run s =
        (some (outcome, after), t)) :
      Reached link traffic plan after t
  /-- Time passes. -/
  | waited {s t : σ} {client : Client κ}
      (hreached : Reached link traffic plan client s)
      (horderly : (traffic t).Orderly plan.framing)
      (hmoves : (traffic s).Moves (traffic t) [])
      (harrived : (traffic t).arrived = (traffic s).arrived) :
      Reached link traffic plan client t

/-- What a client is like between two requests. -/
structure Ready (traffic : σ → Traffic κ) (plan : PolicyPlan)
    (client : Client κ) (s : σ) : Prop where
  framing : client.framing = plan.framing
  maxAttempts : client.maxAttempts = plan.maxAttempts
  orderly : (traffic s).Orderly plan.framing
  settled (connection : Connection κ)
    (hopen : client.connection = some connection) :
    (traffic s).Settled plan.framing connection

variable {plan : PolicyPlan} {client : Client κ}

theorem Ready.tried (hready : Ready traffic plan client s)
    (hreaches : link.Reaches plan.framing traffic) (line : String) :
    ∃ answer after t handles,
      (attempts link client.framing line client.maxAttempts
          client.connection).run.run s = (some (answer, after), t) ∧
        Tried link plan.framing traffic line plan.maxAttempts
          client.connection s answer after t handles := by
  rw [hready.framing, hready.maxAttempts]
  exact attempts_tried hreaches plan.maxAttempts client.connection s
    hready.orderly hready.settled

theorem Reached.ready (hreaches : link.Reaches plan.framing traffic)
    (hreached : Reached link traffic plan client s) :
    Ready traffic plan client s := by
  induction hreached with
  | opened horderly hrun =>
      obtain ⟨-, hnothing⟩ | ⟨found, u, hconnect, hdone⟩ := of_run_bind hrun
      · cases hnothing
      · obtain ⟨hafter, -, hnew⟩ := hreaches.connect horderly hconnect
        cases found with
        | none => cases hdone
        | some handle =>
            cases hdone
            obtain ⟨hnone, hempty⟩ := hnew handle rfl
            exact
              { framing := rfl
                maxAttempts := rfl
                orderly := hafter
                settled := fun _ hopen =>
                  Option.some.inj hopen ▸ hafter.settled hnone hempty }
  | @asked s t client _ line _ _ hrun ih =>
      obtain ⟨answer, after, u, handles, hattempts, htried⟩ :=
        ih.tried hreaches line
      rw [run_request hattempts] at hrun
      cases hrun
      exact
        { framing := ih.framing
          maxAttempts := ih.maxAttempts
          orderly := htried.orderly
          settled := htried.settled }
  | waited _ horderly hmoves harrived ih =>
      exact
        { framing := ih.framing
          maxAttempts := ih.maxAttempts
          orderly := horderly
          settled := fun connection hopen =>
            (ih.settled connection hopen).pause horderly hmoves
              (congrFun harrived connection.handle) }

/-- A request always comes to an end.  Its answer is the answer of the service
to the last of at most `maxAttempts` copies of its own line, all sent for this
request, and it is the answer of the first attempt that succeeds.  The request
fails exactly if all its attempts do. -/
theorem Reached.answers_paired (hreaches : link.Reaches plan.framing traffic)
    (hreached : Reached link traffic plan client s) (line : String) :
    ∃ outcome after t copies,
      (request link line client).run.run s = (some (outcome, after), t) ∧
      (traffic t).sent =
        (traffic s).sent ++ copies.map (fun handle => (handle, line)) ∧
      copies.length ≤ plan.maxAttempts ∧
      (∀ text, outcome = .ok text →
        ∃ earlier handle, copies = earlier ++ [handle] ∧
          (traffic t).Answered plan.framing
            ((traffic s).sent ++ earlier.map fun handle => (handle, line))
            handle text) ∧
      (∀ text, outcome = .ok text ↔
        ∃ failed < plan.maxAttempts, ∃ left,
          Succeeds link plan.framing line failed client.connection s text
            left t) ∧
      (∀ fault, outcome = .error fault ↔
        fault = .noAnswer plan.maxAttempts ∧
          ∃ left, Failures link plan.framing line plan.maxAttempts
            (client.connection, s) (left, t)) ∧
      (plan.maxAttempts = 0 → outcome = .error (.noAnswer 0) ∧ t = s) := by
  have hready := hreached.ready hreaches
  obtain ⟨answer, after, t, copies, hattempts, htried⟩ :=
    hready.tried hreaches line
  have hrun := run_request hattempts
  rw [hready.framing, hready.maxAttempts] at hattempts
  rw [hready.maxAttempts] at hrun
  have hnever : ∀ left, Failures link plan.framing line plan.maxAttempts
      (client.connection, s) (left, t) → answer = none := by
    intro left hfailures
    have hall := hfailures.attempts 0
    rw [Nat.zero_add, hattempts] at hall
    cases hall
    rfl
  have hfirst : ∀ failed < plan.maxAttempts, ∀ text left,
      Succeeds link plan.framing line failed client.connection s text left t →
        answer = some text := by
    intro failed hfailed text left hsucceeds
    have hsome := hsucceeds.attempts hfailed
    rw [hattempts] at hsome
    cases hsome
    rfl
  refine ⟨_, _, t, copies, hrun, htried.moves.sent, htried.few, ?_, ?_, ?_, ?_⟩
  · intro text hok
    cases answer with
    | none => cases hok
    | some found =>
        cases hok
        exact htried.paired text rfl
  · intro text
    constructor
    · intro hok
      cases answer with
      | none => cases hok
      | some found =>
          cases hok
          exact htried.first text rfl
    · rintro ⟨failed, hfailed, left, hsucceeds⟩
      rw [hfirst failed hfailed text left hsucceeds]
      rfl
  · intro fault
    constructor
    · intro herror
      cases answer with
      | none =>
          cases herror
          exact ⟨rfl, after, htried.exhausted rfl⟩
      | some found => cases herror
    · rintro ⟨rfl, left, hfailures⟩
      rw [hnever left hfailures]
      rfl
  · intro hzero
    rw [hzero] at hattempts ⊢
    cases hattempts
    exact ⟨rfl, rfl⟩

end FogDispatch.Client

/-! ## A service with three connections -/

namespace FogDispatch.Client.Sample

/-- A service that answers a line with its own text.  It answers on its first
connection only when a second one is open, and closes the second one without an
answer. -/
structure Service where
  opened : Nat
  sent : List (Nat × String)
  arrived : Nat → List UInt8
  known : ∀ copy ∈ sent, copy.1 < opened

namespace Service

variable (service : Service) (handle : Nat)

def start : Service := ⟨0, [], fun _ => [], nofun⟩

def lines : List String :=
  (service.sent.filter fun copy => copy.1 = handle).map Prod.snd

def answers : List (List UInt8) :=
  if handle = 1 ∨ handle = 0 ∧ service.opened < 2 then []
  else (service.lines handle).map fun line => (encoding line).take 100

def traffic : Traffic Nat := ⟨service.sent, service.answers, service.arrived⟩

def accept : Service :=
  { service with
    opened := service.opened + 1
    known := fun copy hmem => Nat.lt_succ_of_lt (service.known copy hmem) }

def take (line : String) (hopen : handle < service.opened) : Service :=
  { service with
    sent := service.sent ++ [(handle, line)]
    known := fun copy hmem => by
      rcases List.mem_append.mp hmem with hold | hnew
      · exact service.known copy hold
      · rw [List.mem_singleton.mp hnew]
        exact hopen }

/-- The bytes on their way to the client. -/
def coming : List UInt8 :=
  (Framing.lengthPrefixed.frames (service.answers handle)).drop
    (service.arrived handle).length

def deliver : Service :=
  { service with
    arrived := Function.update service.arrived handle
      (service.arrived handle ++ service.coming handle) }

def link : Link (OptionT (StateM Service)) Nat where
  connect := fun service => (some (some service.opened), service.accept)
  send handle line := fun service =>
    if hopen : handle < service.opened then
      (some true, service.take handle line hopen)
    else (some false, service)
  receive handle enough unread := fun service =>
    let bytes := unread ++ service.coming handle
    if handle = 1 then (some (some ⟨bytes, true⟩), service.deliver handle)
    else if enough bytes then
      (some (some ⟨bytes, false⟩), service.deliver handle)
    else (none, service)
  within work := fun service =>
    (some (work.run.run service).1.join, (work.run.run service).2)

variable {service handle}

theorem answers_length_le :
    (service.answers handle).length ≤ Traffic.asked handle service.sent := by
  unfold answers
  split
  · exact Nat.zero_le _
  · rw [List.length_map, lines, List.length_map, Traffic.asked,
      List.countP_eq_length_filter]

theorem answers_part {before after : Service} {more : List (Nat × String)}
    (hopened : before.opened ≤ after.opened)
    (hsent : after.sent = before.sent ++ more) (handle : Nat) :
    before.answers handle <+: after.answers handle := by
  unfold answers lines
  split
  · exact List.nil_prefix
  next hbefore =>
    rw [if_neg (fun hafter => hbefore (hafter.imp_right fun hfirst =>
      ⟨hfirst.1, hopened.trans_lt hfirst.2⟩)), hsent, List.filter_append,
      List.map_append, List.map_append]
    exact List.prefix_append _ _

theorem moves {before after : Service} {more : List (Nat × String)}
    (hopened : before.opened ≤ after.opened)
    (hsent : after.sent = before.sent ++ more) :
    before.traffic.Moves after.traffic more :=
  ⟨hsent, answers_part hopened hsent⟩

theorem orderly (harrived : ∀ handle, service.arrived handle <+:
      Framing.lengthPrefixed.frames (service.answers handle)) :
    service.traffic.Orderly .lengthPrefixed where
  answered _ := answers_length_le
  fits handle payload hmem := by
    have hmem : payload ∈ service.answers handle := hmem
    unfold answers at hmem
    split at hmem
    · cases hmem
    · obtain ⟨line, -, rfl⟩ := List.mem_map.mp hmem
      have hshort := List.length_take_le 100 (encoding line)
      exact hshort.trans_lt (by decide)
  arrived := harrived

theorem orderly_of_moves {before after : Service}
    {more : List (Nat × String)}
    (horderly : before.traffic.Orderly .lengthPrefixed)
    (hmoves : before.traffic.Moves after.traffic more)
    (harrived : after.arrived = before.arrived) :
    after.traffic.Orderly .lengthPrefixed :=
  orderly fun handle => harrived ▸
    (horderly.arrived handle).trans
      (Framing.frames_part (hmoves.answers handle))

theorem arrived_deliver
    (horderly : service.traffic.Orderly .lengthPrefixed) :
    (service.deliver handle).arrived handle =
      Framing.lengthPrefixed.frames (service.answers handle) := by
  obtain ⟨rest, hrest⟩ := horderly.arrived handle
  have hsame : service.arrived handle ++ rest =
    Framing.lengthPrefixed.frames (service.answers handle) := hrest
  dsimp only [deliver, coming]
  rw [Function.update_self, ← hsame, List.drop_left]

theorem orderly_deliver
    (horderly : service.traffic.Orderly .lengthPrefixed) :
    (service.deliver handle).traffic.Orderly .lengthPrefixed := by
  refine orderly fun other => ?_
  rcases eq_or_ne other handle with rfl | hother
  · rw [arrived_deliver horderly]
    exact List.prefix_rfl
  · dsimp only [deliver]
    rw [Function.update_of_ne hother]
    exact horderly.arrived other

theorem receives_deliver {unread : List UInt8} {closed : Bool}
    (horderly : service.traffic.Orderly .lengthPrefixed) :
    service.traffic.Receives (service.deliver handle).traffic .lengthPrefixed
      handle unread ⟨unread ++ service.coming handle, closed⟩ where
  behind := ⟨service.coming handle, rfl, Function.update_self _ _ _⟩
  whole _ := ⟨service.answers handle, List.prefix_rfl, arrived_deliver horderly⟩

theorem asked_opened (service : Service) :
    Traffic.asked service.opened service.sent = 0 := by
  refine List.countP_eq_zero.mpr fun copy hmem => ?_
  have hknown := service.known copy hmem
  simp only [decide_eq_true_eq]
  omega

theorem arrived_opened (horderly : service.traffic.Orderly .lengthPrefixed) :
    service.arrived service.opened = [] := by
  have hcount := @answers_length_le service service.opened
  rw [asked_opened, Nat.le_zero, List.length_eq_zero_iff] at hcount
  have harrived : service.arrived service.opened <+:
      Framing.lengthPrefixed.frames (service.answers service.opened) :=
    horderly.arrived service.opened
  rw [hcount] at harrived
  exact List.prefix_nil.mp harrived

theorem reaches : link.Reaches .lengthPrefixed traffic where
  connect {s t result} horderly hrun := by
    cases hrun
    have hmoves : s.traffic.Moves s.accept.traffic [] :=
      moves (Nat.le_succ _) (List.append_nil _).symm
    refine ⟨orderly_of_moves horderly hmoves rfl, hmoves, fun handle heq => ?_⟩
    cases heq
    exact ⟨asked_opened s, arrived_opened horderly⟩
  send {s t result handle line} horderly hrun := by
    rcases Nat.lt_or_ge handle s.opened with hopen | hclosed
    · have hsend : (link.send handle line).run.run s =
          (some true, s.take handle line hopen) := dif_pos hopen
      rw [hsend] at hrun
      cases hrun
      have hmoves : s.traffic.Moves (s.take handle line hopen).traffic
          [(handle, line)] := moves (Nat.le_refl _) rfl
      exact ⟨orderly_of_moves horderly hmoves rfl, rfl, .inl hmoves⟩
    · have hsend : (link.send handle line).run.run s = (some false, s) :=
        dif_neg (Nat.not_lt.mpr hclosed)
      rw [hsend] at hrun
      cases hrun
      exact ⟨horderly, rfl, .inr ⟨nofun, .refl _⟩⟩
  receive {s t result handle enough unread} horderly hrun := by
    have hmoves : s.traffic.Moves (s.deliver handle).traffic [] :=
      moves (Nat.le_refl _) (List.append_nil _).symm
    have hdelivered := @orderly_deliver s handle horderly
    by_cases hsecond : handle = 1
    · have hreceive : (link.receive handle enough unread).run.run s =
          (some (some ⟨unread ++ s.coming handle, true⟩), s.deliver handle) :=
        if_pos hsecond
      rw [hreceive] at hrun
      cases hrun
      refine ⟨hdelivered, hmoves, fun received heq => ?_⟩
      cases heq
      exact receives_deliver horderly
    by_cases henough : enough (unread ++ s.coming handle) = true
    · have hreceive : (link.receive handle enough unread).run.run s =
          (some (some ⟨unread ++ s.coming handle, false⟩), s.deliver handle) :=
        (if_neg hsecond).trans (if_pos henough)
      rw [hreceive] at hrun
      cases hrun
      refine ⟨hdelivered, hmoves, fun received heq => ?_⟩
      cases heq
      exact receives_deliver horderly
    · have hreceive : (link.receive handle enough unread).run.run s =
          (none, s) := (if_neg hsecond).trans (if_neg henough)
      rw [hreceive] at hrun
      cases hrun
      exact ⟨horderly, .refl _, nofun⟩
  within _ _ := rfl

/-! ## Two requests -/

def plan : PolicyPlan :=
  { address := "", strategy := "", maxAttempts := 3, attemptTimeoutMs := 10
    framing := .lengthPrefixed, priorities := 5
    learning := ⟨none, none, none⟩ }

def first : Client Nat := ⟨.lengthPrefixed, 3, some ⟨0, []⟩⟩

def second : Client Nat := ⟨.lengthPrefixed, 3, some ⟨2, []⟩⟩

/-- What the first request leaves behind: its time runs out on connection 0, and
it is answered on connection 2. -/
def later : Service := ((request link "first" first).run.run start.accept).2

theorem reached_first : Reached link traffic plan first start.accept :=
  .opened (s := start) (orderly fun _ => List.nil_prefix) rfl

theorem reached_second : Reached link traffic plan second later := by
  have hanswer : ((request link "first" first).run.run start.accept).1 =
      some (.ok "first", second) := rfl
  exact .asked reached_first (Prod.ext hanswer rfl)

/-- The late answer on connection 0 is there, and the second request is answered
by its own answer. -/
theorem second_answer_paired :
    link.Reaches plan.framing traffic ∧
      Reached link traffic plan second later ∧
      later.answers 0 = [encoding "first"] ∧
      ∃ (after : Client Nat) (t : Service) (earlier : List Nat) (handle : Nat),
        (request link "second" second).run.run later =
            (some (.ok "second", after), t) ∧
          t.traffic.Answered .lengthPrefixed
            (later.sent ++ earlier.map fun copy => (copy, "second"))
            handle "second" := by
  have hlate : later.answers 0 = [encoding "first"] := rfl
  have hanswer : ((request link "second" second).run.run later).1 =
      some (.ok "second", second) := rfl
  obtain ⟨outcome, after, t, copies, hrun, -, -, hpaired, -⟩ :=
    reached_second.answers_paired reaches "second"
  rw [hrun] at hanswer
  cases hanswer
  obtain ⟨earlier, handle, -, hanswered⟩ := hpaired "second" rfl
  exact ⟨reaches, reached_second, hlate, second, t, earlier, handle, hrun,
    hanswered⟩

end Service
end FogDispatch.Client.Sample
