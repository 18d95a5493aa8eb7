import FogDispatch.Proofs.Isolation
import FogDispatch.Proofs.Peers

/-!
# First come, first served

A strategy that only places the head of its queue serves the first admitted
task.  Peers are admitted alike, so this one is ahead of all its waiting peers.
By induction on the run the arrivals of any class of peers are its departures,
in that order, followed by those that still wait.  Without rules all tasks are
peers.
-/

namespace FogDispatch

/-! ## Classes of a queue -/

section

variable {β : Type}

theorem not_sublist_swap {items : List β} (hnodup : items.Nodup) {a b : β}
    (hsub : [a, b].Sublist items) : ¬ [b, a].Sublist items := by
  intro hswap
  induction items with
  | nil => cases hsub
  | cons head rest ih =>
      obtain ⟨hhead, hrest⟩ := List.nodup_cons.mp hnodup
      cases hsub with
      | cons _ hsub =>
          cases hswap with
          | cons _ hswap => exact ih hrest hsub hswap
          | cons_cons _ _ => exact hhead (hsub.subset (by simp))
      | cons_cons _ hlast =>
          cases hswap with
          | cons _ hswap => exact hhead (hswap.subset (by simp))
          | cons_cons _ _ => exact hhead (hlast.subset (by simp))

theorem sublist_of_last_not_mem {a b : β} {front back : List β}
    (hsub : [a, b].Sublist (front ++ back)) (hlast : b ∉ back) :
    [a, b].Sublist front := by
  obtain ⟨one, other, hsplit, hfront, hback⟩ := List.sublist_append_iff.mp hsub
  cases other using List.reverseRecOn with
  | nil =>
      rw [List.append_nil] at hsplit
      rw [hsplit]
      exact hfront
  | append_singleton other last =>
      have hb : b = last := by
        have hends := congrArg List.getLast? hsplit
        simpa using hends
      rw [hb] at hlast
      exact (hlast (hback.subset (by simp))).elim

/-- Let two elements of a class come in some order, and let the class leave in
the order in which it comes.  Then the second one does not leave while the first
one waits, and once it has left the first one has left before it. -/
theorem leaves_behind {came left waits : List β} {alike : β → Bool}
    (hnodup : came.Nodup)
    (hclass : came.filter alike = left.filter alike ++ waits.filter alike)
    {a b : β} (ha : alike a = true) (hb : alike b = true)
    (hsub : [a, b].Sublist came) :
    (a ∈ waits → b ∉ left) ∧ (b ∈ left → [a, b].Sublist left) := by
  have hkept : [a, b].Sublist (left.filter alike ++ waits.filter alike) := by
    have hfiltered := hsub.filter alike
    rwa [hclass, List.filter_eq_self.mpr (by simp [ha, hb])] at hfiltered
  have hdistinct : (left.filter alike ++ waits.filter alike).Nodup := by
    rw [← hclass]
    exact hnodup.filter alike
  constructor
  · intro hwaits hleft
    apply not_sublist_swap hdistinct hkept
    have hfront : b ∈ left.filter alike := List.mem_filter.mpr ⟨hleft, hb⟩
    have hback : a ∈ waits.filter alike := List.mem_filter.mpr ⟨hwaits, ha⟩
    exact (List.singleton_sublist.mpr hfront).append
      (List.singleton_sublist.mpr hback)
  · intro hleft
    have hfront : b ∈ left.filter alike := List.mem_filter.mpr ⟨hleft, hb⟩
    have hback : b ∉ waits.filter alike := by
      intro hwaits
      exact (List.nodup_append.mp hdistinct).2.2 b hfront b hwaits rfl
    exact (sublist_of_last_not_mem hkept hback).trans List.filter_sublist

/-- Whatever has a mark and is not the first such element stands behind it. -/
theorem sublist_of_first {items : List β} {marked : β → Bool} {first b : β}
    (hfirst : (items.filter marked).head? = some first) (hb : b ∈ items)
    (hmarked : marked b = true) (hne : b ≠ first) :
    [first, b].Sublist items := by
  obtain ⟨rest, hrest⟩ := List.head?_eq_some_iff.mp hfirst
  have hmem : b ∈ first :: rest := by
    rw [← hrest]
    exact List.mem_filter.mpr ⟨hb, hmarked⟩
  have hbehind : b ∈ rest := (List.mem_cons.mp hmem).resolve_left hne
  have hsub : [first, b].Sublist (items.filter marked) := by
    rw [hrest]
    exact (List.singleton_sublist.mpr hbehind).cons_cons first
  exact hsub.trans List.filter_sublist

theorem filter_ne_of_nodup [DecidableEq β] {front back : List β} {item : β}
    (hnodup : (front ++ item :: back).Nodup) :
    (front ++ item :: back).filter (· != item) = front ++ back := by
  have hnew : item ∉ front ++ back :=
    (List.nodup_middle.mp hnodup |> List.nodup_cons.mp).1
  have hothers : (front ++ back).filter (· != item) = front ++ back := by
    rw [List.filter_eq_self]
    intro other hother
    simpa using fun h : other = item => hnew (h ▸ hother)
  rw [← hothers, List.filter_append, List.filter_append,
    List.filter_cons_of_neg (by simp)]

/-- If a class is marked alike then the first element with a mark is also the
first one of its class, so removing it takes the head off the class. -/
theorem filter_eq_of_first [DecidableEq β] {items : List β}
    {marked alike : β → Bool} {first : β} (hnodup : items.Nodup)
    (hfirst : (items.filter marked).head? = some first)
    (halike : ∀ other, alike other = true → alike first = true →
      marked other = marked first) :
    items.filter alike = [first].filter alike ++
      (items.filter (· != first)).filter alike := by
  rw [List.head?_filter, List.find?_eq_some_iff_append] at hfirst
  obtain ⟨hmarked, front, back, rfl, hfront⟩ := hfirst
  have hswap : front.filter alike ++ [first].filter alike =
      [first].filter alike ++ front.filter alike := by
    by_cases hclass : alike first = true
    · have hnone : front.filter alike = [] := by
        rw [List.filter_eq_nil_iff]
        intro other hother hsame
        have hunmarked := hfront other hother
        rw [halike other hsame hclass, hmarked] at hunmarked
        cases hunmarked
      rw [hnone, List.nil_append, List.append_nil]
    · rw [List.filter_cons_of_neg hclass, List.filter_nil, List.nil_append,
        List.append_nil]
  rw [filter_ne_of_nodup hnodup, List.append_cons, List.filter_append,
    List.filter_append, hswap, List.filter_append, List.append_assoc]

end

variable {α σ : Type}

/-! ## The head of the queue -/

section

variable [Arith α] {policy : Policy (StateM σ) α}
  {strategy next : Strategy α} {pending : List TaskId}
  {ctx after : Context α} {now : Time α} {before left : σ}
  {decision : Option (Decision α)}

/-- The strategy that only places offers the first admitted task. -/
theorem Strategy.offers_eq_head (hkind : strategy.kind = .placement) :
    strategy.offers pending ctx now =
      (pending.filter (ctx.releaseFinished now).admits).head?.toList := by
  rw [Strategy.offers, hkind]
  exact List.take_one

/-- The offered task is ahead of its peers. -/
theorem Strategy.sublist_of_offered (hkind : strategy.kind = .placement)
    {a b : TaskId} (hoffered : b ∈ strategy.offers pending ctx now)
    (ha : a ∈ pending) (hpeers : ctx.Peers a b) (hne : a ≠ b) :
    [b, a].Sublist pending := by
  have hregister := ctx.releaseFinished_register now
  have hadmitted := (Strategy.mem_offers hoffered).2
  rw [← (hpeers.of_register hregister).admits_eq] at hadmitted
  rw [Strategy.offers_eq_head hkind, Option.mem_toList] at hoffered
  exact sublist_of_first hoffered ha hadmitted hne

/-- What leaves the queue was the first admitted task. -/
theorem Strategy.Consults.departure_first (hkind : strategy.kind = .placement)
    (hnumbered : ∀ id task, ctx.task? id = some task → task.id = id)
    (hconsults : strategy.Consults policy pending ctx now before decision next
      after left) {id : TaskId}
    (hleaves : decision.bind Decision.task? = some id) :
    (pending.filter (ctx.releaseFinished now).admits).head? = some id := by
  have hnamed : ∀ answer id place task node,
      strategy.Names pending ctx now answer id place task node →
        (pending.filter (ctx.releaseFinished now).admits).head? =
          some task.id := by
    intro answer id place task node hnames
    have hid : task.id = id := hnumbered id task (by simpa using hnames.task_eq)
    have hmem := (Strategy.resolve?_mem hnames.resolved).1
    rw [Strategy.offers_eq_head hkind, Option.mem_toList] at hmem
    rw [hid]
    exact hmem
  cases hconsults with
  | silent hoffers => cases hleaves
  | full hasked hfull => cases hleaves
  | crowded hasked hnames hbusy hnone => cases hleaves
  | rejected hasked hnames hbusy hidle => cases hleaves
  | dropped hasked hnames hidle hmissed hfeedback =>
      cases hleaves
      exact hnamed _ _ _ _ _ hnames
  | assigned hasked hnames hidle hmeets hfeedback =>
      cases hleaves
      exact hnamed _ _ _ _ _ hnames

end

/-! ## The turns -/

/-- The task that comes to the queue with an event. -/
def Event.arrival? (event : Event α) : Option TaskId :=
  match event.target, event.message with
  | .gateway, .taskArrival id => some id
  | _, _ => none

namespace Turn

/-- The task that left the queue, placed or given up. -/
def departure? (turn : Turn α) : Option TaskId :=
  turn.decision?.bind Decision.task?

/-- The tasks whose arrivals were handled, in this order. -/
def arrivals (turns : List (Turn α)) : List TaskId :=
  turns.filterMap (·.event.arrival?)

def departures (turns : List (Turn α)) : List TaskId :=
  turns.filterMap departure?

theorem arrivals_eq (turns : List (Turn α)) :
    arrivals turns = (turns.map event).filterMap Event.arrival? := by
  rw [arrivals, List.filterMap_map]
  rfl

theorem arrivals_cons (turn : Turn α) (turns : List (Turn α)) :
    arrivals (turn :: turns) =
      turn.event.arrival?.toList ++ arrivals turns := by
  rw [arrivals, List.filterMap_cons]
  cases turn.event.arrival? <;> rfl

theorem departures_cons (turn : Turn α) (turns : List (Turn α)) :
    departures (turn :: turns) =
      turn.departure?.toList ++ departures turns := by
  rw [departures, List.filterMap_cons]
  cases turn.departure? <;> rfl

end Turn

variable [Arith α]

namespace Simulation

theorem heard_pending (sim : Simulation α) (event : Event α) :
    (sim.heard event.target event.message).gateway.pending =
      sim.gateway.pending ++ event.arrival?.toList := by
  unfold Event.arrival?
  cases event.target with
  | datacenter id =>
      cases event.message with
      | taskSubmit task node =>
          simp only [heard, runOnDatacenter]
          split <;> simp
      | taskArrival task => simp [heard, runOnDatacenter]
      | gatewayWake => simp [heard, runOnDatacenter]
      | decisionDue => simp [heard, runOnDatacenter]
      | taskFinished task node => simp [heard, runOnDatacenter]
  | gateway =>
      cases event.message with
      | taskArrival task => rfl
      | gatewayWake => simp [heard, modifyGateway]
      | decisionDue =>
          simp only [heard]
          split <;> simp [modifyGateway]
      | taskSubmit task node => simp [heard]
      | taskFinished task node => simp [heard, onFinished_pending]

/-- With an event only its arrival comes to the queue, and neither the strategy
nor the register changes. -/
theorem heard_next {sim popped : Simulation α} {ending : EndCondition α}
    {event : Event α} (hnext : sim.next? ending = some (event, popped)) :
    (popped.heard event.target event.message).gateway.pending =
        sim.gateway.pending ++ event.arrival?.toList ∧
      (popped.heard event.target event.message).gateway.strategy =
        sim.gateway.strategy ∧
      (popped.heard event.target event.message).context.register =
        sim.context.register := by
  obtain ⟨hgateway, _, _⟩ := next?_eq_some hnext
  refine ⟨?_, ?_, heard_register hnext⟩
  · rw [heard_pending, hgateway]
  · rw [heard_strategy, hgateway]

theorem settled_pending (sim : Simulation α)
    (decision : Option (Decision α)) (strategy : Strategy α)
    (ctx : Context α) :
    (sim.settled decision strategy ctx).gateway.pending =
      match decision.bind Decision.task? with
      | some id => sim.gateway.pending.filter (· != id)
      | none => sim.gateway.pending := by
  cases decision <;> rfl

/-- Nothing that the gateway or a datacenter does announces an arrival. -/
theorem heard_arrivals (sim : Simulation α) (target : Target)
    (message : Message) (id : TaskId) :
    (sim.heard target message).queue.messages.count (.taskArrival id) =
      sim.queue.messages.count (.taskArrival id) := by
  cases target with
  | datacenter place =>
      cases message with
      | taskSubmit task node =>
          simp only [heard, runOnDatacenter]
          split <;> simp
      | taskArrival task => rfl
      | gatewayWake => rfl
      | decisionDue => rfl
      | taskFinished task node => rfl
  | gateway =>
      cases message with
      | taskArrival task => rfl
      | gatewayWake => rfl
      | decisionDue =>
          simp only [heard]
          split <;> rfl
      | taskSubmit task node => rfl
      | taskFinished task node =>
          exact onFinished_count sim task node (by simp)

theorem settled_arrivals (sim : Simulation α)
    (decision : Option (Decision α)) (strategy : Strategy α)
    (ctx : Context α) (id : TaskId) :
    (sim.settled decision strategy ctx).queue.messages.count
        (.taskArrival id) = sim.queue.messages.count (.taskArrival id) := by
  rcases decision with _ | ⟨outcome, cost⟩
  · rfl
  · cases outcome with
    | assigned task node transfer =>
        simp only [settled, enact, dispatch]
        split <;> simp
    | dropped task => simp [settled, enact, dispatch]
    | rejected node => simp [settled, enact, dispatch]
    | noCapacity => simp [settled, enact, dispatch]

theorem arrival_next {sim popped : Simulation α} {ending : EndCondition α}
    {event : Event α} (hnext : sim.next? ending = some (event, popped))
    (id : TaskId) :
    event.arrival?.toList.count id +
        popped.queue.messages.count (.taskArrival id) ≤
      sim.queue.messages.count (.taskArrival id) := by
  rw [count_next hnext, Nat.add_comm]
  apply Nat.add_le_add_left
  unfold Event.arrival?
  split
  next hmessage => simp [hmessage, List.count_singleton]
  next => simp

end Simulation

namespace Moment

variable {policy : Policy (StateM σ) α} {ending : EndCondition α}
  {before after first last : Moment σ α} {turn : Turn α}
  {turns : List (Turn α)}

theorem Run.kind (hrun : Run policy ending first turns last) :
    last.sim.gateway.strategy.kind = first.sim.gateway.strategy.kind :=
  congrArg Setting.kind hrun.setting

/-- An arrival is queued, and what departs is taken out. -/
theorem Step.pending_eq (hstep : before.Step policy ending turn after) :
    after.sim.gateway.pending =
      match turn.departure? with
      | some id => (before.sim.gateway.pending ++
          turn.event.arrival?.toList).filter (· != id)
      | none => before.sim.gateway.pending ++ turn.event.arrival?.toList := by
  cases hstep with
  | quiet hnext hquiet => exact (Simulation.heard_next hnext).1
  | consulted hnext hprompts hheard hdecide =>
      subst hheard
      rw [Simulation.settled_pending, (Simulation.heard_next hnext).1]
      rfl

theorem Step.pending_sublist (hstep : before.Step policy ending turn after) :
    after.sim.gateway.pending.Sublist
      (before.sim.gateway.pending ++ turn.event.arrival?.toList) := by
  rw [hstep.pending_eq]
  split
  next => exact List.filter_sublist
  next => exact List.Sublist.refl _

/-- What departs was the first task that the rules admitted. -/
theorem Step.departure_first (hstep : before.Step policy ending turn after)
    (hkind : before.sim.gateway.strategy.kind = .placement)
    (hnumbered : before.sim.context.register.Numbered) {id : TaskId}
    (hleaves : turn.departure? = some id) :
    ∃ ctx : Context α, ctx.register = before.sim.context.register ∧
      ((before.sim.gateway.pending ++
        turn.event.arrival?.toList).filter ctx.admits).head? = some id := by
  cases hstep with
  | quiet hnext hquiet => cases hleaves
  | @consulted event popped sim decision strategy ctx service hnext hprompts
      hheard hdecide =>
      obtain ⟨hpending, hstrategy, hregister⟩ := Simulation.heard_next hnext
      rw [← hheard] at hpending hstrategy hregister
      rw [← hstrategy] at hkind
      rw [← hregister] at hnumbered
      have hfirst := (Strategy.decide_ok hdecide).departure_first hkind
        (fun _ _ htask => Context.numbered_of_register hnumbered htask) hleaves
      rw [hpending] at hfirst
      have hswept := sim.context.releaseFinished_register sim.queue.now
      exact ⟨_, hswept.trans hregister, hfirst⟩

/-- A turn takes at most the head off a class of peers. -/
theorem Step.pending_filter (hstep : before.Step policy ending turn after)
    (hkind : before.sim.gateway.strategy.kind = .placement)
    (hnumbered : before.sim.context.register.Numbered)
    {alike : TaskId → Bool}
    (hpeers : ∀ a b, alike a = true → alike b = true →
      before.sim.context.Peers a b)
    (hnodup : (before.sim.gateway.pending ++
      turn.event.arrival?.toList).Nodup) :
    (before.sim.gateway.pending ++ turn.event.arrival?.toList).filter alike =
      turn.departure?.toList.filter alike ++
        after.sim.gateway.pending.filter alike := by
  rw [hstep.pending_eq]
  cases hleaves : turn.departure? with
  | none => rfl
  | some id =>
      obtain ⟨ctx, hregister, hfirst⟩ :=
        hstep.departure_first hkind hnumbered hleaves
      apply filter_eq_of_first hnodup hfirst
      intro other hother hid
      exact ((hpeers other id hother hid).of_register hregister).admits_eq

theorem Step.arrivals_le (hstep : before.Step policy ending turn after)
    (id : TaskId) :
    turn.event.arrival?.toList.count id +
        after.sim.queue.messages.count (.taskArrival id) ≤
      before.sim.queue.messages.count (.taskArrival id) := by
  cases hstep with
  | @quiet event popped hnext hquiet =>
      rw [Simulation.heard_arrivals]
      exact Simulation.arrival_next hnext id
  | @consulted event popped sim decision strategy ctx service hnext hprompts
      hheard hdecide =>
      rw [Simulation.settled_arrivals, hheard, Simulation.heard_arrivals]
      exact Simulation.arrival_next hnext id

theorem Run.arrivals_le (hrun : Run policy ending first turns last)
    (id : TaskId) :
    (Turn.arrivals turns).count id +
        last.sim.queue.messages.count (.taskArrival id) ≤
      first.sim.queue.messages.count (.taskArrival id) := by
  induction hrun with
  | done now => simp [Turn.arrivals]
  | turn hstep _ ih =>
      have hle := hstep.arrivals_le id
      rw [Turn.arrivals_cons, List.count_append]
      omega

theorem Run.pending_sublist (hrun : Run policy ending first turns last) :
    last.sim.gateway.pending.Sublist
      (first.sim.gateway.pending ++ Turn.arrivals turns) := by
  induction hrun with
  | done now => simp [Turn.arrivals]
  | turn hstep _ ih =>
      rw [Turn.arrivals_cons, ← List.append_assoc]
      exact ih.trans (hstep.pending_sublist.append_right _)

/-- The tasks of a class of peers that waited at first and that arrive are the
ones that depart, in this order, and then the ones that still wait. -/
theorem Run.pending_filter (hrun : Run policy ending first turns last)
    (hkind : first.sim.gateway.strategy.kind = .placement)
    (hnumbered : first.sim.context.register.Numbered)
    {alike : TaskId → Bool}
    (hpeers : ∀ a b, alike a = true → alike b = true →
      first.sim.context.Peers a b)
    (hnodup : (first.sim.gateway.pending ++ Turn.arrivals turns).Nodup) :
    (first.sim.gateway.pending ++ Turn.arrivals turns).filter alike =
      (Turn.departures turns).filter alike ++
        last.sim.gateway.pending.filter alike := by
  induction hrun with
  | done now => simp [Turn.arrivals, Turn.departures]
  | @turn before middle after turn turns hstep hrest ih =>
      rw [Turn.arrivals_cons, ← List.append_assoc] at hnodup ⊢
      have hqueued := hstep.pending_filter hkind hnumbered hpeers
        (List.nodup_append.mp hnodup).1
      have hregister := hstep.register
      have hkept := ih ((Run.turn hstep (.done middle)).kind.trans hkind)
        (hregister ▸ hnumbered)
        (fun a b ha hb => (hpeers a b ha hb).of_register hregister)
        (hnodup.sublist (hstep.pending_sublist.append_right _))
      rw [List.filter_append] at hkept
      rw [List.filter_append, hqueued, List.append_assoc, hkept,
        Turn.departures_cons, List.filter_append, List.append_assoc]

section

variable {gateway : Gateway α} {ctx : Context α} {episode : Nat}
  {dataset : Dataset α} {service : σ} {now : Moment σ α}

/-- No task arrives twice, and none arrives that has arrived already. -/
theorem Run.arrivals_once (hdataset : dataset.Fresh)
    (hrun : Run policy ending (start gateway ctx episode dataset service)
      turns now) (id : TaskId) :
    (Turn.arrivals turns).count id +
      now.sim.queue.messages.count (.taskArrival id) ≤ 1 := by
  have hledger : (Episode.initial gateway.reset
      (ctx.startEpisode episode dataset.jobs dataset.tasks)).Ledger :=
    Simulation.start_ledger hdataset episode
  have honce := hledger.presence_le_one id
  have hle := hrun.arrivals_le id
  unfold Simulation.presence at honce
  change _ ≤ (Episode.initial gateway.reset _).queue.messages.count _ at hle
  omega

theorem Run.arrivals_nodup (hdataset : dataset.Fresh)
    (hrun : Run policy ending (start gateway ctx episode dataset service)
      turns now) : (Turn.arrivals turns).Nodup := by
  rw [List.nodup_iff_count_le_one]
  intro id
  have honce := hrun.arrivals_once hdataset id
  omega

/-- The arrivals of a class of peers are its departures, in this order, and then
the ones that still wait. -/
theorem Run.arrivals_filter (hdataset : dataset.Fresh)
    (hkind : gateway.strategy.kind = .placement)
    (hrun : Run policy ending (start gateway ctx episode dataset service)
      turns now) {alike : TaskId → Bool}
    (hpeers : ∀ a b, alike a = true → alike b = true →
      (ctx.startEpisode episode dataset.jobs dataset.tasks).Peers a b) :
    (Turn.arrivals turns).filter alike =
      (Turn.departures turns).filter alike ++
        now.sim.gateway.pending.filter alike :=
  hrun.pending_filter hkind (start_numbered hdataset) hpeers
    (hrun.arrivals_nodup hdataset)

/-- Two peers depart in the order in which they arrive. -/
theorem Run.arrivals_pair (hdataset : dataset.Fresh)
    (hkind : gateway.strategy.kind = .placement)
    (hrun : Run policy ending (start gateway ctx episode dataset service)
      turns now) {a b : TaskId}
    (hpeers :
      (ctx.startEpisode episode dataset.jobs dataset.tasks).Peers a b) :
    (Turn.arrivals turns).filter [a, b].contains =
      (Turn.departures turns).filter [a, b].contains ++
        now.sim.gateway.pending.filter [a, b].contains := by
  apply hrun.arrivals_filter hdataset hkind
  intro one other hone hother
  exact hpeers.of_pair (by simpa using hone) (by simpa using hother)

theorem Run.next_nodup (hdataset : dataset.Fresh)
    (hrun : Run policy ending (start gateway ctx episode dataset service)
      turns now) {event : Event α} {popped : Simulation α}
    (hnext : now.sim.next? ending = some (event, popped)) :
    (Turn.arrivals turns ++ event.arrival?.toList).Nodup := by
  rw [List.nodup_iff_count_le_one]
  intro id
  have honce := hrun.arrivals_once hdataset id
  have harrival := Simulation.arrival_next hnext id
  rw [List.count_append]
  omega

/-- While one of two peers waits the other one is not offered if it arrived
later. -/
theorem Run.not_offered (hdataset : dataset.Fresh)
    (hkind : gateway.strategy.kind = .placement)
    (hrun : Run policy ending (start gateway ctx episode dataset service)
      turns now) {a b : TaskId}
    (hpeers : (ctx.startEpisode episode dataset.jobs dataset.tasks).Peers a b)
    {event : Event α} {popped sim : Simulation α}
    (hnext : now.sim.next? ending = some (event, popped))
    (hsim : sim = popped.heard event.target event.message)
    (hsub : [a, b].Sublist (Turn.arrivals turns ++ event.arrival?.toList))
    (hwaits : a ∈ sim.gateway.pending) :
    b ∉ sim.gateway.strategy.offers sim.gateway.pending sim.context
      sim.queue.now := by
  intro hoffered
  obtain ⟨hpending, hstrategy, hregister⟩ := Simulation.heard_next hnext
  rw [← hsim] at hpending hstrategy hregister
  have hnodup := hrun.next_nodup hdataset hnext
  have hdistinct : a ≠ b := by
    have hpair := hnodup.sublist hsub
    simpa using hpair
  have hplacement : sim.gateway.strategy.kind = .placement := by
    rw [hstrategy]
    exact hrun.kind.trans hkind
  have hbehind : [b, a].Sublist sim.gateway.pending :=
    Strategy.sublist_of_offered hplacement hoffered hwaits
      (hpeers.of_register (hregister.trans hrun.register)) hdistinct
  -- but the queue holds both in the order of their arrivals
  have horder : sim.gateway.pending.Sublist
      (Turn.arrivals turns ++ event.arrival?.toList) := by
    rw [hpending]
    exact hrun.pending_sublist.append_right _
  exact not_sublist_swap hnodup hsub (hbehind.trans horder)

end

/-- Of two peers the one that arrived first leaves the queue first: while it
waits the other one has not left and is not even offered.  Without rules any two
tasks are peers, and all leave in the order of their arrivals. -/
theorem no_overtaking {gateway : Gateway α} {ctx : Context α} {episode : Nat}
    {dataset : Dataset α} {service : σ} {turns : List (Turn α)}
    {now : Moment σ α} (hdataset : dataset.Fresh)
    (hkind : gateway.strategy.kind = .placement)
    (hrun : Run policy ending (start gateway ctx episode dataset service)
      turns now) :
    (∀ a b,
      (ctx.startEpisode episode dataset.jobs dataset.tasks).Peers a b →
      ([a, b].Sublist (Turn.arrivals turns) →
        (a ∈ now.sim.gateway.pending → b ∉ Turn.departures turns) ∧
        (b ∈ Turn.departures turns →
          [a, b].Sublist (Turn.departures turns))) ∧
      ∀ event popped, now.sim.next? ending = some (event, popped) →
        [a, b].Sublist (Turn.arrivals turns ++ event.arrival?.toList) →
        let sim := popped.heard event.target event.message
        a ∈ sim.gateway.pending →
          b ∉ sim.gateway.strategy.offers sim.gateway.pending sim.context
            sim.queue.now) ∧
    (ctx.respectJobs = false →
      (∀ a b,
        (ctx.startEpisode episode dataset.jobs dataset.tasks).Peers a b) ∧
      Turn.arrivals turns =
        Turn.departures turns ++ now.sim.gateway.pending) := by
  constructor
  · intro a b hpeers
    constructor
    · intro hsub
      have hpair := hrun.arrivals_pair hdataset hkind hpeers
      exact leaves_behind (hrun.arrivals_nodup hdataset) hpair (by simp)
        (by simp) hsub
    · intro event popped hnext hsub sim hwaits
      exact hrun.not_offered hdataset hkind hpeers hnext rfl hsub hwaits
  · intro hrespect
    have hpeers : ∀ a b,
        (ctx.startEpisode episode dataset.jobs dataset.tasks).Peers a b := by
      intro a b hrespected
      have hnever : ctx.respectJobs = true := hrespected
      rw [hrespect] at hnever
      cases hnever
    have hall : ∀ ids : List TaskId, ids.filter (fun _ => true) = ids :=
      fun ids => List.filter_eq_self.mpr fun _ _ => rfl
    have hclass : (Turn.arrivals turns).filter (fun _ => true) =
        (Turn.departures turns).filter (fun _ => true) ++
          now.sim.gateway.pending.filter (fun _ => true) :=
      hrun.arrivals_filter hdataset hkind fun a b _ _ => hpeers a b
    rw [hall, hall, hall] at hclass
    exact ⟨hpeers, hclass⟩

end Moment

namespace Sample

/-- Two more tasks arrive at the same time while the first one runs. -/
def crowd : Dataset Binary64 :=
  { dataset with tasks := [task 0 1, task 1 2, task 2 2] }

theorem crowd_fresh : crowd.Fresh := by decide

/-- The beginning of an episode with three tasks of one job. -/
def crowded (respectJobs : Bool) : Moment Unit Binary64 :=
  Moment.start gateway { context with respectJobs := respectJobs } 0 crowd ()

theorem crowded_run (respectJobs : Bool) (count : Nat)
    (arrived pending : List TaskId)
    (hqueue : ((crowded respectJobs).after? service .drained count).map
      (·.sim.gateway.pending) = some pending)
    (hevents : ((crowded respectJobs).events service .drained
      count).filterMap Event.arrival? = arrived) :
    ∃ turns now, Moment.Run service .drained (crowded respectJobs) turns now ∧
      Turn.arrivals turns = arrived ∧ now.sim.gateway.pending = pending := by
  obtain ⟨now, hafter, hpending⟩ := Option.map_eq_some_iff.mp hqueue
  obtain ⟨turns, hdelivered, hrun⟩ := Moment.run_of_events hafter
  refine ⟨turns, now, hrun, ?_, hpending⟩
  rw [Turn.arrivals_eq, hdelivered, hevents]

end Sample

/-- While the second of three peers waits the third one has not left, and
without rules the first two have left in their order. -/
theorem Moment.sample_no_overtaking :
    (∃ turns now, Run Sample.service .drained (Sample.crowded true) turns
        now ∧
      Turn.arrivals turns = [⟨0⟩, ⟨1⟩, ⟨2⟩] ∧
      now.sim.gateway.pending = [⟨1⟩, ⟨2⟩] ∧
      ⟨2⟩ ∉ Turn.departures turns) ∧
    ∃ turns now, Run Sample.service .drained (Sample.crowded false) turns
        now ∧
      Turn.arrivals turns = [⟨0⟩, ⟨1⟩, ⟨2⟩] ∧
      now.sim.gateway.pending = [⟨2⟩] ∧
      Turn.departures turns = [⟨0⟩, ⟨1⟩] := by
  constructor
  · obtain ⟨turns, now, hrun, harrived, hpending⟩ :=
      Sample.crowded_run true 3 [⟨0⟩, ⟨1⟩, ⟨2⟩] [⟨1⟩, ⟨2⟩]
        (by decide +kernel) (by decide +kernel)
    have hpeers := (no_overtaking Sample.crowd_fresh rfl hrun).1 ⟨1⟩ ⟨2⟩
      (by decide +kernel)
    refine ⟨turns, now, hrun, harrived, hpending, ?_⟩
    apply (hpeers.1 _).1
    · rw [hpending]
      exact List.mem_cons_self
    · rw [harrived]
      decide
  · obtain ⟨turns, now, hrun, harrived, hpending⟩ :=
      Sample.crowded_run false 8 [⟨0⟩, ⟨1⟩, ⟨2⟩] [⟨2⟩]
        (by decide +kernel) (by decide +kernel)
    have hleft := ((no_overtaking Sample.crowd_fresh rfl hrun).2 rfl).2
    refine ⟨turns, now, hrun, harrived, hpending, ?_⟩
    rw [harrived, hpending] at hleft
    have hsplit : Turn.departures turns ++ [⟨2⟩] = [⟨0⟩, ⟨1⟩] ++ [⟨2⟩] :=
      hleft.symm
    exact List.append_cancel_right hsplit

end FogDispatch
