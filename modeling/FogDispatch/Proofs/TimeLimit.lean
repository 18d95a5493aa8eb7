import FogDispatch.Proofs.Punctuality

/-!
# Time limits

The loop looks only at the next event to see whether the episode is over.  That
this comes to a cut by time rests on the order of delivery: no event is due
before the clock, so the times of delivered events never decrease, and the
events that are due by the limit are the first ones of the unlimited run.  A
limited run delivers exactly these, with the same states between them and the
same fault if there is one.
-/

namespace FogDispatch

/-- Of an ordered list, what satisfies a condition that smaller elements
inherit stands in front. -/
theorem filter_prefix_of_pairwise {β : Type} {before : β → β → Prop}
    {keeps : β → Bool} {items : List β} (hpairwise : items.Pairwise before)
    (hinherit : ∀ a b, before a b → keeps b = true → keeps a = true) :
    items.filter keeps <+: items := by
  induction items with
  | nil => exact List.prefix_refl _
  | cons head rest ih =>
      obtain ⟨hhead, hrest⟩ := List.pairwise_cons.mp hpairwise
      by_cases hkept : keeps head = true
      · rw [List.filter_cons_of_pos hkept, List.prefix_cons_inj]
        exact ih hrest
      · have hnone : rest.filter keeps = [] := by
          rw [List.filter_eq_nil_iff]
          intro item hitem hkeeps
          exact hkept (hinherit head item (hhead item hitem) hkeeps)
        rw [List.filter_cons_of_neg hkept, hnone]
        exact List.nil_prefix

variable {α σ : Type} [Arith α]

theorem EventQueue.pop?_limit_eq_some {queue popped : EventQueue α}
    {event : Event α} {limit : Time α} :
    queue.pop? (.limit limit) = some (event, popped) ↔
      queue.pop? .drained = some (event, popped) ∧
        event.time.isBy limit = true := by
  unfold pop?
  cases queue.future with
  | nil => simp
  | cons head rest =>
      have hdrained : admits .drained head.time = true := rfl
      have hlimit : admits (.limit limit) head.time =
          head.time.isBy limit := rfl
      simp only [hdrained, hlimit, if_true]
      by_cases hby : head.time.isBy limit = true
      · rw [if_pos hby]
        constructor
        · rintro ⟨⟩
          exact ⟨rfl, hby⟩
        · exact fun hpop => hpop.1
      · rw [if_neg hby]
        constructor
        · exact fun hpop => nomatch hpop
        · rintro ⟨⟨⟩, hevent⟩
          exact (hby hevent).elim

namespace Simulation

variable {sim popped : Simulation α} {event : Event α} {limit : Time α}

theorem next?_limit_eq_some :
    sim.next? (.limit limit) = some (event, popped) ↔
      sim.next? .drained = some (event, popped) ∧
        event.time.isBy limit = true := by
  simp only [next?, Option.map_eq_some_iff, Prod.exists, Prod.mk.injEq,
    EventQueue.pop?_limit_eq_some]
  constructor
  · rintro ⟨head, queue, ⟨hpop, hby⟩, rfl, hpopped⟩
    exact ⟨⟨head, queue, hpop, rfl, hpopped⟩, hby⟩
  · rintro ⟨⟨head, queue, hpop, rfl, hpopped⟩, hby⟩
    exact ⟨head, queue, ⟨hpop, hby⟩, rfl, hpopped⟩

theorem next?_limit_of_late (hnext : sim.next? .drained = some (event, popped))
    (hlate : event.time.isBy limit = false) :
    sim.next? (.limit limit) = none := by
  rw [Option.eq_none_iff_forall_ne_some]
  rintro ⟨other, after⟩ hother
  obtain ⟨hsame, hby⟩ := next?_limit_eq_some.mp hother
  obtain ⟨rfl, rfl⟩ : event = other ∧ popped = after := by
    simpa [hnext] using hsame
  rw [hlate] at hby
  contradiction

theorem next?_limit_of_drained (hnext : sim.next? .drained = none) :
    sim.next? (.limit limit) = none := by
  rw [Option.eq_none_iff_forall_ne_some]
  rintro ⟨event, popped⟩ hsome
  have hdrained := (next?_limit_eq_some.mp hsome).1
  rw [hnext] at hdrained
  contradiction

/-- A delivery takes no time, and leaves the events in order. -/
theorem deliver_clock [Std.TransCmp (Arith.order : α → α → Ordering)]
    {ending : EndCondition α} (hordered : sim.queue.Ordered)
    (hnext : sim.next? ending = some (event, popped))
    (policy : Policy (StateM σ) α) (memory : σ) {result : Except Fault Unit}
    {after : Simulation α} {left : σ}
    (hdeliver : (popped.deliver policy event.target event.message).run
      memory = ((result, after), left)) :
    after.queue.Ordered ∧ after.queue.now = event.time ∧
      sim.queue.now.isBy event.time = true := by
  obtain ⟨_, _, hpop⟩ := next?_eq_some hnext
  obtain ⟨_, hnow, _⟩ := EventQueue.pop?_eq_some hpop
  obtain ⟨hpopped, hforward⟩ := hordered.pop hpop
  have hkept := deliver_queue_keeps
    (fun queue => queue.Ordered ∧ queue.now = event.time)
    (fun queue delay target message hqueue =>
      ⟨hqueue.1.schedule delay target message, hqueue.2⟩)
    ⟨hpopped, hnow⟩ policy event.target event.message memory
  rw [hdeliver] at hkept
  rw [hnow] at hforward
  exact ⟨hkept.1, hkept.2, hforward⟩

/-! ## Faults -/

variable {policy : Policy (StateM σ) α}

theorem runEvents_of_ok {ending : EndCondition α} (allotted : Nat)
    (hnext : sim.next? ending = some (event, popped))
    {after : Simulation α} {memory left : σ}
    (hdeliver : (popped.deliver policy event.target event.message).run
      memory = ((.ok (), after), left)) :
    (sim.runEvents policy ending (allotted + 1)).run memory =
      (after.runEvents policy ending allotted).run left := by
  rw [runEvents, hnext]
  exact run_bind_eq hdeliver

theorem runEvents_of_error {ending : EndCondition α} (allotted : Nat)
    (hnext : sim.next? ending = some (event, popped))
    {after : Simulation α} {memory left : σ} {fault : Fault}
    (hdeliver : (popped.deliver policy event.target event.message).run
      memory = ((.error fault, after), left)) :
    (sim.runEvents policy ending (allotted + 1)).run memory =
      ((.error fault, after), left) := by
  rw [runEvents, hnext]
  exact run_bind_eq hdeliver

theorem runEvents_of_none {ending : EndCondition α} (allotted : Nat)
    (hnext : sim.next? ending = none) (memory : σ) :
    (sim.runEvents policy ending (allotted + 1)).run memory =
      ((.ok (), sim.closeClock ending), memory) := by
  rw [runEvents, hnext]
  rfl

variable [Std.TransCmp (Arith.order : α → α → Ordering)]

/-- The clock at the end of a run is no earlier than at its start. -/
theorem runEvents_forward (hordered : sim.queue.Ordered) (allotted : Nat)
    (memory : σ) :
    sim.queue.now.isBy ((sim.runEvents policy .drained allotted).run
      memory).1.2.queue.now = true := by
  induction allotted generalizing sim memory with
  | zero => exact Time.isBy_refl _
  | succ allotted ih =>
      cases hnext : sim.next? .drained with
      | none =>
          rw [runEvents_of_none allotted hnext]
          exact Time.isBy_refl _
      | some pair =>
          obtain ⟨event, popped⟩ := pair
          cases hdeliver : (popped.deliver policy event.target
              event.message).run memory with
          | mk delivered left =>
              obtain ⟨result, after⟩ := delivered
              obtain ⟨hafter, hnow, hforward⟩ :=
                deliver_clock hordered hnext policy memory hdeliver
              rw [← hnow] at hforward
              cases result with
              | ok _ =>
                  rw [runEvents_of_ok allotted hnext hdeliver]
                  exact Time.isBy_trans hforward (ih hafter left)
              | error fault =>
                  rw [runEvents_of_error allotted hnext hdeliver]
                  exact hforward

theorem isBy_of_runEvents_error {limit : Time α} (hordered : sim.queue.Ordered)
    {allotted : Nat} {memory left : σ} {fault : Fault} {final : Simulation α}
    (hrun : (sim.runEvents policy .drained allotted).run memory =
      ((.error fault, final), left))
    (hby : final.queue.now.isBy limit = true) :
    sim.queue.now.isBy limit = true := by
  have hforward : sim.queue.now.isBy ((sim.runEvents policy .drained
      allotted).run memory).1.2.queue.now = true :=
    runEvents_forward hordered allotted memory
  rw [hrun] at hforward
  exact Time.isBy_trans hforward hby

/-- A run that breaks off within the limit finds its next event within the limit
too. -/
theorem next_isBy_of_runEvents_error {limit : Time α}
    (hordered : sim.queue.Ordered)
    (hnext : sim.next? .drained = some (event, popped)) {allotted : Nat}
    {memory left : σ} {fault : Fault} {final : Simulation α}
    (hrun : (sim.runEvents policy .drained (allotted + 1)).run memory =
      ((.error fault, final), left))
    (hby : final.queue.now.isBy limit = true) :
    event.time.isBy limit = true := by
  cases hdeliver : (popped.deliver policy event.target event.message).run
      memory with
  | mk delivered middle =>
      obtain ⟨result, after⟩ := delivered
      obtain ⟨hafter, hclock, _⟩ :=
        deliver_clock hordered hnext policy memory hdeliver
      rw [← hclock]
      cases result with
      | ok _ =>
          rw [runEvents_of_ok allotted hnext hdeliver] at hrun
          exact isBy_of_runEvents_error hafter hrun hby
      | error _ =>
          rw [runEvents_of_error allotted hnext hdeliver] at hrun
          cases hrun
          exact hby

/-- From a clock within the limit, a limited run breaks off just where the
unlimited one does, provided that the clock has not passed the limit there. -/
theorem runEvents_error_iff_of_isBy {limit : Time α}
    (hordered : sim.queue.Ordered) (hnow : sim.queue.now.isBy limit = true)
    (allotted : Nat) {memory left : σ} {fault : Fault}
    {final : Simulation α} :
    (sim.runEvents policy (.limit limit) allotted).run memory =
        ((.error fault, final), left) ↔
      (sim.runEvents policy .drained allotted).run memory =
        ((.error fault, final), left) ∧
          final.queue.now.isBy limit = true := by
  induction allotted generalizing sim memory with
  | zero =>
      constructor
      · rintro ⟨⟩
        exact ⟨rfl, hnow⟩
      · exact fun hrun => hrun.1
  | succ allotted ih =>
      cases hnext : sim.next? .drained with
      | none =>
          have hlimit : sim.next? (.limit limit) = none :=
            next?_limit_of_drained hnext
          rw [runEvents_of_none allotted hnext,
            runEvents_of_none allotted hlimit]
          constructor
          · exact fun hrun => nomatch hrun
          · exact fun hrun => nomatch hrun.1
      | some pair =>
          obtain ⟨event, popped⟩ := pair
          by_cases hby : event.time.isBy limit = true
          · have hlimit := next?_limit_eq_some.mpr ⟨hnext, hby⟩
            cases hdeliver : (popped.deliver policy event.target
                event.message).run memory with
            | mk delivered middle =>
                obtain ⟨result, after⟩ := delivered
                obtain ⟨hafter, hclock, _⟩ :=
                  deliver_clock hordered hnext policy memory hdeliver
                rw [← hclock] at hby
                cases result with
                | ok _ =>
                    rw [runEvents_of_ok allotted hnext hdeliver,
                      runEvents_of_ok allotted hlimit hdeliver]
                    exact ih hafter hby
                | error _ =>
                    rw [runEvents_of_error allotted hnext hdeliver,
                      runEvents_of_error allotted hlimit hdeliver]
                    constructor
                    · rintro ⟨⟩
                      exact ⟨rfl, hby⟩
                    · exact fun hrun => hrun.1
          · -- the limited run ends here, and the other one has passed the limit
            have hlimit := next?_limit_of_late hnext (by simpa using hby)
            rw [runEvents_of_none allotted hlimit]
            constructor
            · exact fun hrun => nomatch hrun
            · rintro ⟨hrun, hfinal⟩
              exact (hby (next_isBy_of_runEvents_error hordered hnext hrun
                hfinal)).elim

end Simulation

namespace Moment

variable {policy : Policy (StateM σ) α} {limit : Time α}
  {before after first last : Moment σ α} {turn : Turn α} {turns : List (Turn α)}

theorem Step.limit_iff :
    before.Step policy (.limit limit) turn after ↔
      before.Step policy .drained turn after ∧
        turn.event.time.isBy limit = true := by
  constructor
  · intro hstep
    cases hstep with
    | quiet hnext hquiet =>
        obtain ⟨hdrained, hby⟩ := Simulation.next?_limit_eq_some.mp hnext
        exact ⟨.quiet hdrained hquiet, hby⟩
    | consulted hnext hprompts hheard hdecide =>
        obtain ⟨hdrained, hby⟩ := Simulation.next?_limit_eq_some.mp hnext
        exact ⟨.consulted hdrained hprompts hheard hdecide, hby⟩
  · rintro ⟨hstep, hby⟩
    cases hstep with
    | quiet hnext hquiet =>
        have hlimit := Simulation.next?_limit_eq_some.mpr ⟨hnext, hby⟩
        exact .quiet hlimit hquiet
    | consulted hnext hprompts hheard hdecide =>
        have hlimit := Simulation.next?_limit_eq_some.mpr ⟨hnext, hby⟩
        exact .consulted hlimit hprompts hheard hdecide

theorem Run.limit_iff :
    Run policy (.limit limit) first turns last ↔
      Run policy .drained first turns last ∧
        ∀ turn ∈ turns, turn.event.time.isBy limit = true := by
  constructor
  · intro hrun
    induction hrun with
    | done now => exact ⟨.done now, by simp⟩
    | turn hstep _ ih =>
        obtain ⟨hdrained, hby⟩ := Step.limit_iff.mp hstep
        exact ⟨.turn hdrained ih.1, List.forall_mem_cons.mpr ⟨hby, ih.2⟩⟩
  · rintro ⟨hrun, hdue⟩
    induction hrun with
    | done now => exact .done now
    | turn hstep _ ih =>
        obtain ⟨hby, hrest⟩ := List.forall_mem_cons.mp hdue
        exact .turn (Step.limit_iff.mpr ⟨hstep, hby⟩) (ih hrest)

/-- After some turns the delivery of an event ends in a fault. -/
def Fails (policy : Policy (StateM σ) α) (ending : EndCondition α)
    (first : Moment σ α) (event : Event α) (fault : Fault)
    (final : Moment σ α) : Prop :=
  ∃ turns last popped, Run policy ending first turns last ∧
    last.sim.next? ending = some (event, popped) ∧
    (popped.deliver policy event.target event.message).run last.service =
      ((.error fault, final.sim), final.service)

variable [Std.TransCmp (Arith.order : α → α → Ordering)]
  {ending : EndCondition α}

theorem Step.clock (hordered : before.sim.queue.Ordered)
    (hstep : before.Step policy ending turn after) :
    after.sim.queue.Ordered ∧ after.sim.queue.now = turn.event.time ∧
      before.sim.queue.now.isBy turn.event.time = true := by
  obtain ⟨event, consulted⟩ := turn
  obtain ⟨popped, hnext⟩ := hstep.next
  have hdeliver := (step_iff hnext).mp ⟨consulted, hstep⟩
  exact Simulation.deliver_clock hordered hnext policy _ hdeliver

theorem Run.ordered (hordered : first.sim.queue.Ordered)
    (hrun : Run policy ending first turns last) : last.sim.queue.Ordered := by
  induction hrun with
  | done now => exact hordered
  | turn hstep _ ih => exact ih (hstep.clock hordered).1

/-- No event of a run is due before its start or after its end. -/
theorem Run.times (hordered : first.sim.queue.Ordered)
    (hrun : Run policy ending first turns last) :
    first.sim.queue.now.isBy last.sim.queue.now = true ∧
      ∀ turn ∈ turns,
        first.sim.queue.now.isBy turn.event.time = true ∧
          turn.event.time.isBy last.sim.queue.now = true := by
  induction hrun with
  | done now => exact ⟨Time.isBy_refl _, by simp⟩
  | turn hstep _ ih =>
      obtain ⟨hmiddle, hnow, hforward⟩ := hstep.clock hordered
      obtain ⟨hlater, hrest⟩ := ih hmiddle
      rw [hnow] at hlater
      refine ⟨Time.isBy_trans hforward hlater, ?_⟩
      rw [List.forall_mem_cons]
      refine ⟨⟨hforward, hlater⟩, ?_⟩
      intro other hother
      obtain ⟨hfrom, hto⟩ := hrest other hother
      rw [hnow] at hfrom
      exact ⟨Time.isBy_trans hforward hfrom, hto⟩

theorem Run.chronological (hordered : first.sim.queue.Ordered)
    (hrun : Run policy ending first turns last) :
    turns.Pairwise fun a b => a.event.time.isBy b.event.time = true := by
  induction hrun with
  | done now => exact List.Pairwise.nil
  | turn hstep hrest ih =>
      obtain ⟨hmiddle, hnow, _⟩ := hstep.clock hordered
      rw [List.pairwise_cons]
      refine ⟨?_, ih hmiddle⟩
      intro other hother
      rw [← hnow]
      exact ((hrest.times hmiddle).2 other hother).1

theorem Fails.limit_iff {event : Event α} {fault : Fault}
    {final : Moment σ α} (hordered : first.sim.queue.Ordered) :
    Fails policy (.limit limit) first event fault final ↔
      Fails policy .drained first event fault final ∧
        event.time.isBy limit = true := by
  constructor
  · rintro ⟨turns, last, popped, hrun, hnext, hdeliver⟩
    obtain ⟨hdrained, hby⟩ := Simulation.next?_limit_eq_some.mp hnext
    exact ⟨⟨turns, last, popped, (Run.limit_iff.mp hrun).1, hdrained,
      hdeliver⟩, hby⟩
  · rintro ⟨⟨turns, last, popped, hrun, hnext, hdeliver⟩, hby⟩
    have hlimit := Simulation.next?_limit_eq_some.mpr ⟨hnext, hby⟩
    -- every event before the failing one is due no later than it
    have hdue : ∀ turn ∈ turns, turn.event.time.isBy limit = true := by
      intro turn hturn
      obtain ⟨_, _, hforward⟩ := Simulation.deliver_clock
        (hrun.ordered hordered) hnext policy last.service hdeliver
      have hlast := ((hrun.times hordered).2 turn hturn).2
      exact Time.isBy_trans (Time.isBy_trans hlast hforward) hby
    exact ⟨turns, last, popped, Run.limit_iff.mpr ⟨hrun, hdue⟩, hlimit,
      hdeliver⟩

/-- The clock does not pass the limit while events are delivered. -/
theorem Run.within (hordered : first.sim.queue.Ordered)
    (hrun : Run policy (.limit limit) first turns last)
    (hfirst : first.sim.queue.now.isBy limit = true) :
    last.sim.queue.now.isBy limit = true := by
  induction hrun with
  | done now => exact hfirst
  | turn hstep _ ih =>
      obtain ⟨hdrained, hby⟩ := Step.limit_iff.mp hstep
      obtain ⟨hmiddle, hnow, _⟩ := hdrained.clock hordered
      apply ih hmiddle
      rw [hnow]
      exact hby

/-- How a limit cuts what follows a moment. -/
structure Cut (policy : Policy (StateM σ) α) (limit : Time α)
    (first : Moment σ α) : Prop where
  handled : ∀ turns last, Run policy (.limit limit) first turns last ↔
    Run policy .drained first turns last ∧
      ∀ turn ∈ turns, turn.event.time.isBy limit = true
  initial : ∀ turns last, Run policy .drained first turns last →
    turns.filter (·.event.time.isBy limit) <+: turns ∧
      ∃ middle, Run policy (.limit limit) first
        (turns.filter (·.event.time.isBy limit)) middle
  fails : ∀ event fault final,
    Fails policy (.limit limit) first event fault final ↔
      Fails policy .drained first event fault final ∧
        event.time.isBy limit = true

theorem cut_of_ordered (policy : Policy (StateM σ) α) (limit : Time α)
    {first : Moment σ α} (hordered : first.sim.queue.Ordered) :
    Cut policy limit first := by
  refine ⟨fun _ _ => Run.limit_iff, ?_, fun _ _ _ => Fails.limit_iff hordered⟩
  intro turns last hrun
  have hfront : turns.filter (·.event.time.isBy limit) <+: turns :=
    filter_prefix_of_pairwise (hrun.chronological hordered)
      fun a b hab hb => Time.isBy_trans hab hb
  refine ⟨hfront, ?_⟩
  obtain ⟨later, happend⟩ := hfront
  rw [← happend] at hrun
  obtain ⟨middle, hdue, _⟩ := hrun.split
  refine ⟨middle, Run.limit_iff.mpr ⟨hdue, ?_⟩⟩
  intro turn hturn
  exact (List.mem_filter.mp hturn).2

end Moment

namespace Episode

theorem arrivals_now (tasks : List (Task α)) :
    (arrivals tasks).now = Time.zero := by
  suffices hfold : ∀ queue : EventQueue α,
      (tasks.foldl (fun queue task =>
        queue.push task.arrival .gateway (.taskArrival task.id))
          queue).now = queue.now from hfold EventQueue.empty
  induction tasks with
  | nil => exact fun queue => rfl
  | cons task rest ih => exact fun queue => ih _

variable {policy : Policy (StateM σ) α} {ending : EndCondition α}
  {gateway : Gateway α} {ctx : Context α} {memory left : σ}

theorem run_error_iff {allotted : Nat} {fault : Fault} {final : Simulation α} :
    (Episode.run allotted policy ending gateway ctx).run memory =
        ((.error fault, final), left) ↔
      ((initial gateway ctx).runEvents policy ending allotted).run memory =
        ((.error fault, final), left) := by
  unfold Episode.run
  cases hevents : ((initial gateway ctx).runEvents policy ending
      allotted).run memory with
  | mk ended last =>
      obtain ⟨result, after⟩ := ended
      rw [run_bind_eq hevents]
      cases result with
      | ok _ =>
          constructor
          · exact fun hrun => nomatch hrun
          · exact fun hrun => nomatch hrun
      | error other =>
          constructor
          · rintro ⟨⟩
            rfl
          · rintro ⟨⟩
            rfl

variable [Std.TransCmp (Arith.order : α → α → Ordering)] {limit : Time α}

/-- With at least one event allotted, a limited episode breaks off just where
the unlimited one does, provided that the clock has not passed the limit
there. -/
theorem run_error_limit_iff (allotted : Nat) {fault : Fault}
    {final : Simulation α} :
    (Episode.run (allotted + 1) policy (.limit limit) gateway ctx).run memory =
        ((.error fault, final), left) ↔
      (Episode.run (allotted + 1) policy .drained gateway ctx).run memory =
        ((.error fault, final), left) ∧
          final.queue.now.isBy limit = true := by
  have hordered : (initial gateway ctx).queue.Ordered :=
    Simulation.arrivals_ordered ctx.tasks
  rw [run_error_iff, run_error_iff]
  by_cases hzero : (initial gateway ctx).queue.now.isBy limit = true
  · exact Simulation.runEvents_error_iff_of_isBy hordered hzero _
  · -- no event is due by a limit before the start
    constructor
    · intro hrun
      cases hnext : (initial gateway ctx).next? (.limit limit) with
      | none =>
          rw [Simulation.runEvents_of_none allotted hnext] at hrun
          exact nomatch hrun
      | some pair =>
          obtain ⟨event, popped⟩ := pair
          obtain ⟨_, hby⟩ := Simulation.next?_limit_eq_some.mp hnext
          obtain ⟨_, _, hpop⟩ := Simulation.next?_eq_some hnext
          have hforward := (hordered.pop hpop).2
          rw [(EventQueue.pop?_eq_some hpop).2.1] at hforward
          exact (hzero (Time.isBy_trans hforward hby)).elim
    · rintro ⟨hrun, hby⟩
      exact (hzero (Simulation.isBy_of_runEvents_error hordered hrun
        hby)).elim

/-- A limited episode is simulated up to its limit, whatever events are left. -/
theorem clock_of_limit [Std.LawfulEqCmp (Arith.order : α → α → Ordering)]
    {allotted : Nat} {clock : Time α} {final : Simulation α}
    (hepisode : (Episode.run allotted policy (.limit limit) gateway ctx).run
      memory = ((.ok clock, final), left)) :
    clock = Time.zero.later limit := by
  have hordered : (initial gateway ctx).queue.Ordered :=
    Simulation.arrivals_ordered ctx.tasks
  have hstart : (initial gateway ctx).queue.now = Time.zero :=
    arrivals_now ctx.tasks
  obtain ⟨turns, last, hrun, _, rfl, rfl, _⟩ := Moment.run_of_episode hepisode
  change last.sim.queue.now.later limit = _
  by_cases hzero : (Time.zero : Time α).isBy limit = true
  · have hlast : last.sim.queue.now.isBy limit = true := by
      apply hrun.within hordered
      rw [hstart]
      exact hzero
    rw [Time.later_eq_right hlast, Time.later_eq_right hzero]
  · -- no event is due by a limit before the start
    cases hrun with
    | done now => rw [hstart]
    | turn hstep hrest =>
        obtain ⟨hdrained, hby⟩ := Moment.Step.limit_iff.mp hstep
        have hforward := (hdrained.clock hordered).2.2
        rw [hstart] at hforward
        exact (hzero (Time.isBy_trans hforward hby)).elim

end Episode

variable [Std.TransCmp (Arith.order : α → α → Ordering)]
  [Std.LawfulEqCmp (Arith.order : α → α → Ordering)]

/-- A time limit only cuts: the limited episode handles the events of the
unlimited one that are due by the limit, these are its first ones, and it fails
where the unlimited one fails by the limit.  Without a fault its clock ends at
the limit, or at the start if this is later. -/
theorem Moment.limit_cuts (policy : Policy (StateM σ) α) (gateway : Gateway α)
    (ctx : Context α) (episode : Nat) (dataset : Dataset α) (service : σ)
    (limit : Time α) :
    Cut policy limit (start gateway ctx episode dataset service) ∧
      ∀ allotted,
        let ended ending := (Episode.run (allotted + 1) policy ending
          gateway.reset
          (ctx.startEpisode episode dataset.jobs dataset.tasks)).run service
        (∀ fault final left,
          ended (.limit limit) = ((.error fault, final), left) ↔
            ended .drained = ((.error fault, final), left) ∧
              final.queue.now.isBy limit = true) ∧
        ∀ clock final left,
          ended (.limit limit) = ((.ok clock, final), left) →
            clock = Time.zero.later limit := by
  refine ⟨cut_of_ordered policy limit
    (Simulation.arrivals_ordered dataset.tasks), ?_⟩
  intro allotted ended
  refine ⟨?_, ?_⟩
  · intro fault final left
    exact Episode.run_error_limit_iff allotted
  · intro clock final left hended
    exact Episode.clock_of_limit hended

/-- After four seconds of the small episode five of its events are handled, and
others are left. -/
theorem Moment.sample_limit_cuts :
    (∃ turns middle, turns.length = 5 ∧
      Run Sample.service .drained Sample.first turns middle ∧
      ∀ turn ∈ turns, turn.event.time.isBy ⟨Sample.whole 4⟩ = true) ∧
    ∃ final,
      (Episode.run 20 Sample.service (.limit ⟨Sample.whole 4⟩)
        Sample.gateway.reset (Sample.context.startEpisode 0
          Sample.dataset.jobs Sample.dataset.tasks)).run () =
        ((.ok (Time.zero.later ⟨Sample.whole 4⟩), final), ()) ∧
      final.queue.future ≠ [] := by
  have hcuts := limit_cuts Sample.service Sample.gateway Sample.context 0
    Sample.dataset () ⟨Sample.whole 4⟩
  have hreached : (Sample.first.after? Sample.service
      (.limit ⟨Sample.whole 4⟩) 5).isSome = true := by
    decide +kernel
  obtain ⟨middle, hafter⟩ := Option.isSome_iff_exists.mp hreached
  obtain ⟨turns, hlength, hrun⟩ := run_of_after? hafter
  obtain ⟨hdrained, hdue⟩ := (hcuts.1.handled turns middle).mp hrun
  refine ⟨⟨turns, middle, hlength, hdrained, hdue⟩, ?_⟩
  have hends : ((Episode.run 20 Sample.service (.limit ⟨Sample.whole 4⟩)
      Sample.gateway.reset (Sample.context.startEpisode 0 Sample.dataset.jobs
        Sample.dataset.tasks)).run ()).1.1.isOk = true ∧
      ((Episode.run 20 Sample.service (.limit ⟨Sample.whole 4⟩)
        Sample.gateway.reset (Sample.context.startEpisode 0
          Sample.dataset.jobs Sample.dataset.tasks)).run
            ()).1.2.queue.isEmpty = false := by
    decide +kernel
  cases hepisode : (Episode.run 20 Sample.service (.limit ⟨Sample.whole 4⟩)
      Sample.gateway.reset (Sample.context.startEpisode 0 Sample.dataset.jobs
        Sample.dataset.tasks)).run () with
  | mk ended left =>
      obtain ⟨fault | clock, final⟩ := ended
      · rw [hepisode] at hends
        exact nomatch hends.1
      · obtain rfl := (hcuts.2 19).2 clock final left hepisode
        refine ⟨final, rfl, ?_⟩
        rw [hepisode] at hends
        intro hempty
        simp [EventQueue.isEmpty, hempty] at hends

end FogDispatch
