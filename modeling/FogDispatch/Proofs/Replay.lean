import FogDispatch.Proofs.Requests

/-!
# Replayed programs

One program replays another if, as long as its policy answers like the policy of
the other, it sends the same requests and its value is an image of the other's.
The two policies may have memories of different kinds.  All that counts is what
they answer to the requests at hand, one after the other.
-/

namespace FogDispatch

variable {α β γ δ ε σ τ : Type}

/-- What a policy answers to requests in a row. -/
def Policy.answers (policy : Policy (StateM σ) α) (memory : σ) :
    List (Request α) → List (Except Fault String)
  | [] => []
  | request :: rest =>
    let (answer, left) := (policy.ask request).run memory
    answer :: policy.answers left rest

/-- The requests of the first program, answered alike, lead the second one
through the same requests to the image of the value. -/
def Replays (one : Policy (StateM σ) α) (other : Policy (StateM τ) α)
    (image : β → γ) (first : StateM (List (Request α) × σ) β)
    (second : StateM (List (Request α) × τ) γ) : Prop :=
  ∀ earlier memory, ∃ sent,
    (first.run (earlier, memory)).2.1 = earlier ++ sent ∧
    ∀ fresh later,
      one.answers memory (sent ++ later) = other.answers fresh (sent ++ later) →
      ∃ left, second.run (earlier, fresh) =
          (image (first.run (earlier, memory)).1, (earlier ++ sent, left)) ∧
        one.answers (first.run (earlier, memory)).2.2 later =
          other.answers left later

namespace Replays

variable {one : Policy (StateM σ) α} {other : Policy (StateM τ) α}

theorem pure {image : β → γ} {value : β} {value' : γ}
    (hvalue : value' = image value) :
    Replays one other image (Pure.pure value) (Pure.pure value') := by
  intro earlier memory
  refine ⟨[], (List.append_nil _).symm, ?_⟩
  intro fresh later hagree
  refine ⟨fresh, ?_, hagree⟩
  rw [hvalue, List.append_nil]
  rfl

theorem ask (request : Request α) :
    Replays one other id (one.recorded.ask request)
      (other.recorded.ask request) := by
  intro earlier memory
  refine ⟨[request], rfl, ?_⟩
  intro fresh later hagree
  have hanswer : ((one.ask request).run memory).1 =
      ((other.ask request).run fresh).1 := (List.cons.inj hagree).1
  refine ⟨((other.ask request).run fresh).2, ?_, (List.cons.inj hagree).2⟩
  rw [Policy.recorded_ask, Policy.recorded_ask, hanswer]
  rfl

theorem bind {image : β → γ} {image' : δ → ε}
    {first : StateM (List (Request α) × σ) β}
    {second : StateM (List (Request α) × τ) γ}
    {rest : β → StateM (List (Request α) × σ) δ}
    {rest' : γ → StateM (List (Request α) × τ) ε}
    (hfirst : Replays one other image first second)
    (hrest : ∀ value, Replays one other image' (rest value)
      (rest' (image value))) :
    Replays one other image' (first >>= rest) (second >>= rest') := by
  intro earlier memory
  obtain ⟨sent, hsent, hreplay⟩ := hfirst earlier memory
  cases hrun : first.run (earlier, memory) with
  | mk value middle =>
      obtain ⟨said, memory'⟩ := middle
      rw [hrun] at hsent hreplay
      obtain rfl : said = earlier ++ sent := hsent
      obtain ⟨more, hmore, hreplay'⟩ := hrest value (earlier ++ sent) memory'
      rw [run_bind_eq hrun]
      refine ⟨sent ++ more, by rw [hmore, List.append_assoc], ?_⟩
      intro fresh later hagree
      rw [List.append_assoc] at hagree
      obtain ⟨fresh', hsecond, hagree'⟩ := hreplay fresh (more ++ later) hagree
      obtain ⟨left, hrun', hleft⟩ := hreplay' fresh' later hagree'
      refine ⟨left, ?_, hleft⟩
      rw [run_bind_eq hsecond, hrun', List.append_assoc]

/-- A program that replays another sends the same requests. -/
theorem sent_eq {image : β → γ}
    {first : StateM (List (Request α) × σ) β}
    {second : StateM (List (Request α) × τ) γ}
    (hreplays : Replays one other image first second) {memory : σ} {fresh : τ}
    (hagree : one.answers memory (sentBy first memory) =
      other.answers fresh (sentBy first memory)) :
    sentBy second fresh = sentBy first memory ∧
      (second.run ([], fresh)).1 = image (first.run ([], memory)).1 := by
  obtain ⟨sent, hsent, hreplay⟩ := hreplays [] memory
  rw [List.nil_append] at hsent
  have hsame : sentBy first memory = sent := hsent
  rw [hsame, ← List.append_nil sent] at hagree
  obtain ⟨left, hrun, _⟩ := hreplay fresh [] hagree
  rw [sentBy, hrun, hsame]
  exact ⟨rfl, rfl⟩

end Replays
end FogDispatch
