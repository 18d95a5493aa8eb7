import FogDispatch.Proofs.DecisionWindows

/-!
# The times of a node

A node is given a task only while it is idle, and by then everything that it was
given before is done.  So the appointments on one node lie one after the other.
Its working time is charged when an appointment is made, long before the work is
done, but it never is more than the end of the appointment that it is held for.
-/

namespace FogDispatch

/-! ## Working times by host -/

theorem sum_map_modify {β : Type} (weight : β → ℚ) (change : β → β)
    {items : List β} {index : Nat} {item : β}
    (hitem : items[index]? = some item) :
    ((items.modify index change).map weight).sum =
      (items.map weight).sum + (weight (change item) - weight item) := by
  induction items generalizing index with
  | nil => simp at hitem
  | cons head rest ih =>
      cases index with
      | zero =>
          obtain rfl : head = item := by simpa using hitem
          rw [List.modify_zero_cons, List.map_cons, List.map_cons,
            List.sum_cons, List.sum_cons]
          ring
      | succ index =>
          have hrest : rest[index]? = some item := by simpa using hitem
          rw [List.modify_succ_cons, List.map_cons, List.map_cons,
            List.sum_cons, List.sum_cons, ih hrest, add_assoc]

namespace BusyTimes

def Sorted (times : BusyTimes ℚ) : Prop :=
  times.entries.Pairwise fun one other => one.1 < other.1

theorem mem_addTo {host : Nat} {time : ℚ} {entries : List (Nat × ℚ)}
    {entry : Nat × ℚ} (hentry : entry ∈ addTo host time entries) :
    entry.1 = host ∨ entry ∈ entries := by
  induction entries with
  | nil => simp_all [addTo]
  | cons head rest ih =>
      unfold addTo at hentry
      grind

theorem sorted_add {times : BusyTimes ℚ} (hsorted : times.Sorted)
    (host : Nat) (time : Span ℚ) : (times.add host time).Sorted := by
  obtain ⟨entries⟩ := times
  change (addTo host time.value entries).Pairwise _
  induction entries with
  | nil => exact List.pairwise_singleton _ _
  | cons head rest ih =>
      obtain ⟨hhead, hrest⟩ := List.pairwise_cons.mp hsorted
      unfold addTo
      split
      next hbefore =>
        refine List.pairwise_cons.mpr ⟨?_, hsorted⟩
        intro entry hentry
        rcases List.mem_cons.mp hentry with rfl | hmem
        · exact hbefore
        · exact hbefore.trans (hhead entry hmem)
      next =>
        split
        next => exact List.pairwise_cons.mpr ⟨hhead, hrest⟩
        next hafter hother =>
          refine List.pairwise_cons.mpr ⟨?_, ih hrest⟩
          intro entry hentry
          rcases mem_addTo hentry with heq | hmem
          · change head.1 < entry.1
            omega
          · exact hhead entry hmem

@[simp] theorem of_nil (host : Nat) : (⟨[]⟩ : BusyTimes ℚ).of host = 0 := rfl

theorem of_cons (head : Nat × ℚ) (rest : List (Nat × ℚ)) (host : Nat) :
    (⟨head :: rest⟩ : BusyTimes ℚ).of host =
      if head.1 = host then head.2 else (⟨rest⟩ : BusyTimes ℚ).of host := by
  by_cases hhost : head.1 = host <;> simp [of, hhost]

theorem of_eq_zero {entries : List (Nat × ℚ)} {host : Nat}
    (hafter : ∀ entry ∈ entries, host < entry.1) :
    (⟨entries⟩ : BusyTimes ℚ).of host = 0 := by
  induction entries with
  | nil => rfl
  | cons head rest ih =>
      obtain ⟨hhead, hrest⟩ := List.forall_mem_cons.mp hafter
      rw [of_cons, if_neg (by omega), ih hrest]

/-- Working time is added to its host and to no other. -/
theorem of_add {times : BusyTimes ℚ} (hsorted : times.Sorted) (host : Nat)
    (time : Span ℚ) (other : Nat) :
    (times.add host time).of other =
      times.of other + if host = other then time.value else 0 := by
  obtain ⟨entries⟩ := times
  change (⟨addTo host time.value entries⟩ : BusyTimes ℚ).of other = _
  induction entries with
  | nil =>
      have hfirst : (Arith.zero : ℚ) + time.value = time.value := zero_add _
      rw [addTo, of_cons, of_nil, zero_add]
      simp only [hfirst]
  | cons head rest ih =>
      obtain ⟨hhead, hrest⟩ := List.pairwise_cons.mp hsorted
      unfold addTo
      by_cases hbefore : host < head.1
      · have hnew : ∀ entry ∈ head :: rest, host < entry.1 := by
          refine List.forall_mem_cons.mpr ⟨hbefore, ?_⟩
          exact fun entry hentry => hbefore.trans (hhead entry hentry)
        rw [if_pos hbefore, of_cons]
        by_cases hhost : host = other
        · subst other
          rw [if_pos rfl, if_pos rfl, of_eq_zero hnew]
          rfl
        · rw [if_neg hhost, if_neg hhost, add_zero]
      · rw [if_neg hbefore]
        by_cases hsame : host = head.1
        · rw [if_pos hsame, of_cons, of_cons, hsame]
          split
          next => rfl
          next => rw [add_zero]
        · rw [if_neg hsame, of_cons, of_cons, ih hrest]
          by_cases hother : head.1 = other
          · rw [if_pos hother, if_pos hother, if_neg (by omega), add_zero]
          · rw [if_neg hother, if_neg hother]

end BusyTimes

/-! ## Appointments on one node -/

namespace Context

variable {σ : Type}

/-- Placed tasks stand on candidate nodes, and the appointments on one node lie
one after the other. -/
structure Diary (ctx : Context ℚ) : Prop where
  candidate : ∀ id task place, ctx.task? id = some task →
    task.node = some place → ∃ node, ctx.topology.node? place = some node ∧
      node.isCandidate = true
  begun : ∀ id task place start done, ctx.task? id = some task →
    ctx.Booked task place start done → 0 ≤ start.value
  apart : ∀ id other task row place start done start' done', id ≠ other →
    ctx.task? id = some task → ctx.task? other = some row →
    ctx.Booked task place start done → ctx.Booked row place start' done' →
      done.value ≤ start'.value ∨ done'.value ≤ start.value

variable {ctx other : Context ℚ}

theorem Diary.of_unplaced
    (hunplaced : ∀ id task, ctx.task? id = some task → task.node = none) :
    ctx.Diary := by
  constructor
  case candidate =>
    intro id task place htask hplace
    rw [hunplaced id task htask] at hplace
    cases hplace
  case begun =>
    intro id task place start done htask hbooked
    exact absurd (hunplaced id task htask) hbooked.placed
  case apart =>
    intro id _ task _ place start done _ _ _ htask _ hbooked
    exact absurd (hunplaced id task htask) hbooked.placed

theorem before_of_slot
    (hslot : ∀ id, (other.task? id).map Task.slot =
      (ctx.task? id).map Task.slot) {id : TaskId} {task : Task ℚ}
    (htask : other.task? id = some task) :
    ∃ before, ctx.task? id = some before ∧ before.slot = task.slot := by
  have hsame := hslot id
  rw [htask, Option.map_some] at hsame
  exact Option.map_eq_some_iff.mp hsame.symm

theorem Diary.of_slot (hdiary : ctx.Diary)
    (hreset : other.topology.reset = ctx.topology.reset)
    (hslot : ∀ id, (other.task? id).map Task.slot =
      (ctx.task? id).map Task.slot) : other.Diary := by
  constructor
  case candidate =>
    intro id task place htask hplace
    obtain ⟨before, hbefore, hsame⟩ := before_of_slot hslot htask
    have hnode : before.node = task.node := congrArg Slot.node hsame
    obtain ⟨node, hnode, hcandidate⟩ :=
      hdiary.candidate id before place hbefore (hnode.trans hplace)
    obtain ⟨after, hafter, hmarked⟩ :=
      Topology.exists_node_of_reset hreset hnode
    have hkind : after.markIdle.isCandidate = node.markIdle.isCandidate :=
      congrArg Node.isCandidate hmarked
    exact ⟨after, hafter, hkind.trans hcandidate⟩
  case begun =>
    intro id task place start done htask hbooked
    obtain ⟨before, hbefore, hsame⟩ := before_of_slot hslot htask
    exact hdiary.begun id before place start done hbefore
      (hbooked.of_same hsame hreset.symm)
  case apart =>
    intro id next task row place start done start' done' hne htask hrow hbooked
      hnext
    obtain ⟨before, hbefore, hsame⟩ := before_of_slot hslot htask
    obtain ⟨earlier, hearlier, hsame'⟩ := before_of_slot hslot hrow
    exact hdiary.apart id next before earlier place start done start' done' hne
      hbefore hearlier (hbooked.of_same hsame hreset.symm)
      (hnext.of_same hsame' hreset.symm)

/-- A new appointment comes after all the others on its node. -/
theorem Diary.bound (hdiary : ctx.Diary) {task : Task ℚ} {node : Node ℚ}
    (htask : ctx.task? task.id = some task) (hplace : task.node = none)
    (hnode : ctx.topology.node? node.id = some node)
    (hcandidate : node.isCandidate = true) {now : Time ℚ} {cost : Span ℚ}
    (hnow : 0 ≤ now.value)
    (hstart : now.value ≤ (ctx.startOn task node now cost).value)
    (hpast : ∀ id row start done, ctx.task? id = some row →
      ctx.Booked row node.id start done → done.value ≤ now.value) :
    (ctx.bound task node now cost).Diary := by
  have hbound := bound_task? htask node now cost
  have hbooked := booked_bound task hnode now cost
  have hextends := extends_bound htask hplace node now cost
  -- a task of the new context is the placed one, or it stood there before
  have hrows : ∀ id row, (ctx.bound task node now cost).task? id = some row →
      (id = task.id ∧ (ctx.bound task node now cost).Booked row node.id
        (ctx.startOn task node now cost)
        (ctx.startOn task node now cost + node.runningTime task.length)) ∨
      (id ≠ task.id ∧ ctx.task? id = some row) := by
    intro id row hrow
    rw [hbound] at hrow
    by_cases hid : task.id = id
    · rw [if_pos hid] at hrow
      obtain rfl := Option.some.inj hrow
      exact Or.inl ⟨hid.symm, hbooked⟩
    · rw [if_neg hid] at hrow
      exact Or.inr ⟨Ne.symm hid, hrow⟩
  have hkept : ∀ row place start done,
      (ctx.bound task node now cost).Booked row place start done →
        ctx.Booked row place start done :=
    fun row place start done hown => hown.of_same rfl hextends.reset.symm
  constructor
  case candidate =>
    intro id row place hrow hown
    rw [bound_node?]
    rcases hrows id row hrow with ⟨_, hnew⟩ | ⟨_, hold⟩
    · obtain rfl := Option.some.inj (hnew.node_eq.symm.trans hown)
      exact ⟨node.markBusy, by simp [hnode], hcandidate⟩
    · obtain ⟨target, htarget, hkind⟩ := hdiary.candidate id row place hold hown
      split
      next => exact ⟨target.markBusy, by simp [htarget], hkind⟩
      next => exact ⟨target, htarget, hkind⟩
  case begun =>
    intro id row place start done hrow hown
    rcases hrows id row hrow with ⟨_, hnew⟩ | ⟨_, hold⟩
    · obtain ⟨_, rfl, _⟩ := hnew.unique hown
      exact hnow.trans hstart
    · exact hdiary.begun id row place start done hold
        (hkept row place start done hown)
  case apart =>
    intro id other row next place start done start' done' hne hrow hnext hown
      hother
    rcases hrows id row hrow with ⟨hid, hnew⟩ | ⟨_, hold⟩
    · rcases hrows other next hnext with ⟨hid', _⟩ | ⟨_, hold'⟩
      · exact (hne (hid.trans hid'.symm)).elim
      · obtain ⟨rfl, rfl, _⟩ := hnew.unique hown
        exact Or.inr ((hpast other next start' done' hold'
          (hkept _ _ _ _ hother)).trans hstart)
    · rcases hrows other next hnext with ⟨_, hnew'⟩ | ⟨_, hold'⟩
      · obtain ⟨rfl, rfl, _⟩ := hnew'.unique hother
        exact Or.inl ((hpast id row start done hold
          (hkept _ _ _ _ hown)).trans hstart)
      · exact hdiary.apart id other row next place start done start' done' hne
          hold hold' (hkept _ _ _ _ hown) (hkept _ _ _ _ hother)

/-! ## Working times -/

/-- The running times of all tasks that a node was given. -/
def workOn (ctx : Context ℚ) (node : Node ℚ) : ℚ :=
  (ctx.tasks.map fun task =>
    if task.node = some node.id then (node.runningTime task.length).value
    else 0).sum

theorem workOn_of_markIdle (ctx : Context ℚ) {node after : Node ℚ}
    (hmarked : after.markIdle = node.markIdle) :
    ctx.workOn after = ctx.workOn node := by
  have hwork := congrArg ctx.workOn hmarked
  exact hwork

theorem workOn_of_slot
    (hslot : ∀ id, (other.task? id).map Task.slot =
      (ctx.task? id).map Task.slot) (node : Node ℚ) :
    other.workOn node = ctx.workOn node := by
  have hslots : other.tasks.map Task.slot = ctx.tasks.map Task.slot := by
    apply List.ext_getElem?
    intro index
    rw [List.getElem?_map, List.getElem?_map]
    exact hslot ⟨index⟩
  have hsum := congrArg (fun slots : List (Slot ℚ) => (slots.map fun slot =>
    if slot.node = some node.id then (node.runningTime slot.terms.length).value
    else 0).sum) hslots
  simp only [List.map_map] at hsum
  exact hsum

theorem workOn_bound {task : Task ℚ} (htask : ctx.task? task.id = some task)
    (hplace : task.node = none) (node : Node ℚ) (now : Time ℚ)
    (cost : Span ℚ) (other : Node ℚ) :
    (ctx.bound task node now cost).workOn other = ctx.workOn other +
      if node.id = other.id then (other.runningTime task.length).value
      else 0 := by
  refine (sum_map_modify _ _ htask).trans ?_
  simp [workOn, hplace]

/-- The charged working times are those of the placed tasks. -/
structure Metered (ctx : Context ℚ) : Prop where
  own : ∀ place node, ctx.topology.node? place = some node →
    node.id = place ∧ node.host = place.index
  sorted : ctx.metrics.current.deviceBusy.Sorted
  charged : ∀ place node, ctx.topology.node? place = some node →
    ctx.metrics.current.deviceBusy.of node.host = ctx.workOn node

theorem Metered.of_slot (hmetered : ctx.Metered)
    (hreset : other.topology.reset = ctx.topology.reset)
    (hslot : ∀ id, (other.task? id).map Task.slot =
      (ctx.task? id).map Task.slot)
    (hbusy : other.metrics.current.deviceBusy =
      ctx.metrics.current.deviceBusy) : other.Metered := by
  have hbefore : ∀ place node, other.topology.node? place = some node →
      ∃ before, ctx.topology.node? place = some before ∧
        before.markIdle = node.markIdle :=
    fun place node hnode => Topology.exists_node_of_reset hreset.symm hnode
  constructor
  case own =>
    intro place node hnode
    obtain ⟨before, hold, hmarked⟩ := hbefore place node hnode
    obtain ⟨hid, hhost⟩ := hmetered.own place before hold
    have hid' : before.markIdle.id = node.markIdle.id :=
      congrArg Node.id hmarked
    have hhost' : before.markIdle.host = node.markIdle.host :=
      congrArg Node.host hmarked
    exact ⟨hid'.symm.trans hid, hhost'.symm.trans hhost⟩
  case sorted =>
    rw [hbusy]
    exact hmetered.sorted
  case charged =>
    intro place node hnode
    obtain ⟨before, hold, hmarked⟩ := hbefore place node hnode
    have hhost : before.markIdle.host = node.markIdle.host :=
      congrArg Node.host hmarked
    change before.host = node.host at hhost
    rw [workOn_of_slot hslot, hbusy, ← hhost,
      ← ctx.workOn_of_markIdle hmarked]
    exact hmetered.charged place before hold

theorem Metered.bound (hmetered : ctx.Metered) {task : Task ℚ}
    {node : Node ℚ} (htask : ctx.task? task.id = some task)
    (hplace : task.node = none)
    (hnode : ctx.topology.node? node.id = some node) (now : Time ℚ)
    (cost : Span ℚ) : (ctx.bound task node now cost).Metered := by
  have hreset : (ctx.bound task node now cost).topology.reset =
      ctx.topology.reset := Topology.reset_markBusy _ node.id
  have hmarks : ({ ctx with
      topology := ctx.topology.markBusy node.id } : Context ℚ).Metered :=
    hmetered.of_slot hreset (fun _ => rfl) rfl
  refine ⟨hmarks.own, BusyTimes.sorted_add hmetered.sorted _ _, ?_⟩
  intro place other hother
  have hcharged : ctx.metrics.current.deviceBusy.of other.host =
      ctx.workOn other := hmarks.charged place other hother
  have hown : node.host = node.id.index := (hmetered.own node.id node hnode).2
  obtain ⟨hid, hhost⟩ := hmarks.own place other hother
  change (ctx.metrics.current.deviceBusy.add node.host
    (node.runningTime task.length)).of other.host = _
  rw [BusyTimes.of_add hmetered.sorted, workOn_bound htask hplace, hcharged,
    hown, hhost, hid]
  by_cases hsame : node.id = place
  · obtain ⟨target, htarget, hmarked⟩ :=
      Topology.exists_node_of_reset hreset hnode
    rw [hsame, hother, Option.some.injEq] at htarget
    rw [if_pos (congrArg NodeId.index hsame), if_pos hsame, htarget,
      Node.runningTime_of_markIdle hmarked]
  · have hindex : node.id.index ≠ place.index := by
      intro heq
      exact hsame (congrArg NodeId.mk heq)
    rw [if_neg hindex, if_neg hsame]

end Context

theorem EpisodeMetrics.recordCompletion_deviceBusy (metrics : EpisodeMetrics ℚ)
    (task : Task ℚ) :
    (metrics.recordCompletion task).deviceBusy = metrics.deviceBusy := by
  unfold recordCompletion
  split <;> rfl

@[simp] theorem Context.releaseFinished_deviceBusy (ctx : Context ℚ)
    (now : Time ℚ) :
    (ctx.releaseFinished now).metrics.current.deviceBusy =
      ctx.metrics.current.deviceBusy :=
  releaseFinished_leaves EpisodeMetrics.recordCompletion_deviceBusy ctx now

/-! ## Charges between events -/

namespace Simulation

/-- A node has worked no longer than the clock shows if it is idle, and no
longer than its task will take it otherwise. -/
structure Charged (sim : Simulation ℚ) : Prop where
  started : 0 ≤ sim.queue.now.value
  diary : sim.context.Diary
  metered : sim.context.Metered
  free : ∀ place node, sim.context.topology.node? place = some node →
    node.isIdle = true →
      sim.context.metrics.current.deviceBusy.of node.host ≤ sim.queue.now.value
  held : ∀ place node id task start done,
    sim.context.topology.node? place = some node →
    sim.context.task? id = some task → task.finish = none →
    sim.context.Booked task place start done →
      sim.context.metrics.current.deviceBusy.of node.host ≤ done.value

variable {σ : Type} {sim other popped : Simulation ℚ}
  {ending : EndCondition ℚ} {event : Event ℚ}

/-- Nothing but placements and completions has a part in charges. -/
theorem Charged.quiet (hcharged : sim.Charged)
    (hlater : sim.queue.now.value ≤ other.queue.now.value)
    (htopology : other.context.topology = sim.context.topology)
    (htask : ∀ id, other.context.task? id = sim.context.task? id)
    (hbusy : other.context.metrics.current.deviceBusy =
      sim.context.metrics.current.deviceBusy) : other.Charged := by
  have hreset : other.context.topology.reset = sim.context.topology.reset :=
    congrArg Topology.reset htopology
  have hslot : ∀ id, (other.context.task? id).map Task.slot =
      (sim.context.task? id).map Task.slot := by
    intro id
    rw [htask]
  refine ⟨hcharged.started.trans hlater,
    hcharged.diary.of_slot hreset hslot,
    hcharged.metered.of_slot hreset hslot hbusy, ?_, ?_⟩
  · rw [htopology, hbusy]
    intro place node hnode hidle
    exact (hcharged.free place node hnode hidle).trans hlater
  · intro place node id task start done hnode hid hopen hbooked
    rw [htopology] at hnode
    rw [htask] at hid
    rw [hbusy]
    exact hcharged.held place node id task start done hnode hid hopen
      (hbooked.of_same rfl hreset.symm)

/-- The node that a completion frees has worked no longer than the clock shows,
for its appointment ends now. -/
theorem Charged.complete (hcharged : sim.Charged) {id : TaskId}
    {place : NodeId} {task : Task ℚ} {start : Time ℚ}
    (htask : sim.context.task? id = some task) (hopen : task.finish = none)
    (hbooked : sim.context.Booked task place start other.queue.now)
    (hlater : sim.queue.now.value ≤ other.queue.now.value)
    (hfinished : other.context =
      sim.context.finished id place other.queue.now) : other.Charged := by
  have hreset : (sim.context.finished id place
      other.queue.now).topology.reset = sim.context.topology.reset :=
    Topology.reset_markIdle _ place
  have hslot := sim.context.slot_finished id place other.queue.now
  constructor
  case started => exact hcharged.started.trans hlater
  case diary =>
    rw [hfinished]
    exact hcharged.diary.of_slot hreset hslot
  case metered =>
    rw [hfinished]
    exact hcharged.metered.of_slot hreset hslot rfl
  case free =>
    rw [hfinished]
    intro target node hnode hidle
    rw [Context.finished_node?] at hnode
    by_cases hplace : place = target
    · subst target
      rw [if_pos rfl] at hnode
      -- until now the node was held for the task
      obtain ⟨before, hbefore, rfl⟩ := Option.map_eq_some_iff.mp hnode
      exact hcharged.held place before id task start _ hbefore htask hopen
        hbooked
    · rw [if_neg hplace] at hnode
      exact (hcharged.free target node hnode hidle).trans hlater
  case held =>
    rw [hfinished]
    intro target node next row begun done hnode hrow hrunning hown
    obtain ⟨before, hbefore, hmarked⟩ :=
      Topology.exists_node_of_reset hreset.symm hnode
    have hhost : before.markIdle.host = node.markIdle.host :=
      congrArg Node.host hmarked
    change before.host = node.host at hhost
    rw [Context.finished_task?] at hrow
    by_cases hid : id = next
    · rw [if_pos hid] at hrow
      obtain ⟨row, _, rfl⟩ := Option.map_eq_some_iff.mp hrow
      cases hrunning
    · rw [if_neg hid] at hrow
      rw [← hhost]
      exact hcharged.held target before next row begun done hbefore hrow
        hrunning (hown.of_same rfl hreset.symm)

theorem Charged.hear (hcharged : sim.Charged) (hbooks : sim.Books)
    (hordered : sim.queue.Ordered) (htable : sim.Timetable)
    (hnext : sim.next? ending = some (event, popped)) :
    (popped.heard event.target event.message).Charged := by
  obtain ⟨_, hcontext, hpop⟩ := next?_eq_some hnext
  have hlater : sim.queue.now.value ≤
      (popped.heard event.target event.message).queue.now.value := by
    rw [heard_now]
    exact Time.isBy_iff_le.mp (hordered.pop hpop).2
  rcases heard_context hnext with hsame | ⟨id, place, hmessage, hfinished⟩
  · have hmetrics := popped.heard_metrics event.target event.message
    rw [hcontext] at hmetrics
    exact hcharged.quiet hlater (congrArg Context.topology hsame)
      (fun _ => by rw [hsame])
      (congrArg (fun metrics => metrics.current.deviceBusy) hmetrics)
  · obtain ⟨task, htask, _, hopen⟩ := Context.hosts_iff.mp
      (hbooks.ledger.hosts_of_flight hnext (Or.inr hmessage))
    have hdue := htable.due event ((mem_future_next hnext).mpr (Or.inl rfl))
    rw [Context.Agrees, hmessage] at hdue
    obtain ⟨row, start, hrow, hbooked⟩ := hdue
    obtain rfl : task = row := Option.some.inj (htask.symm.trans hrow)
    rw [← now_next hnext, ← heard_now] at hbooked
    rw [← heard_now] at hfinished
    exact hcharged.complete htask hopen hbooked hlater hfinished

/-- Everything that an idle node was given is done by now. -/
theorem Books.past_of_idle (hbooks : sim.Books) (hpunctual : sim.Punctual)
    (htable : sim.Timetable) {place : NodeId} {node : Node ℚ}
    (hnode : sim.context.topology.node? place = some node)
    (hidle : node.isIdle = true) {id : TaskId} {row : Task ℚ}
    {start done : Time ℚ} (hrow : sim.context.task? id = some row)
    (hbooked : sim.context.Booked row place start done) :
    row.finish ≠ none ∧ done.value ≤ sim.queue.now.value := by
  cases hnoted : row.finish with
  | none =>
      have hhosts := Context.hosts_iff.mpr
        ⟨row, hrow, hbooked.node_eq, hnoted⟩
      have hbusy := (hbooks.occupancy.busy_iff place node hnode).mpr
        ⟨id, hhosts⟩
      rw [hidle] at hbusy
      cases hbusy
  | some finish =>
      obtain ⟨other, begun, hown⟩ :=
        htable.finished id row finish hrow hnoted
      obtain ⟨_, _, rfl⟩ := hbooked.unique hown
      exact ⟨by simp, Time.isBy_iff_le.mp
        (hpunctual.past id row finish hrow hnoted)⟩

/-- A placement charges an idle node, and the appointment that it makes ends no
earlier than the charge. -/
theorem Charged.bind (hcharged : sim.Charged) {task : Task ℚ} {node : Node ℚ}
    (htask : sim.context.task? task.id = some task)
    (hplace : task.node = none)
    (hnode : sim.context.topology.node? node.id = some node)
    (hidle : node.isIdle = true) (hcandidate : node.isCandidate = true)
    {cost : Span ℚ}
    (hstart : sim.queue.now.value ≤
      (sim.context.startOn task node sim.queue.now cost).value)
    (hpast : ∀ id row start done, sim.context.task? id = some row →
      sim.context.Booked row node.id start done →
        row.finish ≠ none ∧ done.value ≤ sim.queue.now.value) :
    ({ sim with context := sim.context.bound task node sim.queue.now cost } :
      Simulation ℚ).Charged := by
  obtain ⟨started, diary, metered, free, held⟩ := hcharged
  have hbooked := Context.booked_bound task hnode sim.queue.now cost
  have hbound := Context.bound_task? htask node sim.queue.now cost
  have hafter := metered.bound htask hplace hnode sim.queue.now cost
  have hreset : (sim.context.bound task node sim.queue.now
      cost).topology.reset = sim.context.topology.reset :=
    Topology.reset_markBusy _ node.id
  -- Only the chosen node is charged.
  have hbusy : ∀ place target, (sim.context.bound task node sim.queue.now
      cost).topology.node? place = some target →
        (sim.context.bound task node sim.queue.now
          cost).metrics.current.deviceBusy.of target.host =
            sim.context.workOn target + if node.id = place then
              (target.runningTime task.length).value else 0 := by
    intro place target htarget
    rw [hafter.charged place target htarget,
      Context.workOn_bound htask hplace, (hafter.own place target htarget).1]
  constructor
  case started => exact started
  case diary =>
    exact diary.bound htask hplace hnode hcandidate started hstart
      fun id row start done hrow hown => (hpast id row start done hrow hown).2
  case metered => exact hafter
  case free =>
    intro place target htarget hfree
    rw [hbusy place target htarget]
    change (sim.context.bound task node sim.queue.now cost).topology.node?
      place = some target at htarget
    rw [Context.bound_node?] at htarget
    by_cases hsame : node.id = place
    · rw [if_pos hsame] at htarget
      obtain ⟨before, _, rfl⟩ := Option.map_eq_some_iff.mp htarget
      cases hfree
    · rw [if_neg hsame] at htarget
      rw [if_neg hsame, add_zero, ← metered.charged place target htarget]
      exact free place target htarget hfree
  case held =>
    intro place target id row start done htarget hrow hopen hown
    rw [hbusy place target htarget]
    obtain ⟨before, hbefore, hmarked⟩ :=
      Topology.exists_node_of_reset hreset.symm htarget
    have hwork : sim.context.metrics.current.deviceBusy.of before.host =
        sim.context.workOn target := by
      rw [metered.charged place before hbefore,
        sim.context.workOn_of_markIdle hmarked]
    change (sim.context.bound task node sim.queue.now cost).task? id =
      some row at hrow
    rw [hbound] at hrow
    by_cases hid : task.id = id
    · rw [if_pos hid] at hrow
      obtain rfl := Option.some.inj hrow
      obtain ⟨rfl, rfl, rfl⟩ := hbooked.unique hown
      obtain rfl : node = before := Option.some.inj (hnode.symm.trans hbefore)
      have hfree := free node.id node hnode hidle
      rw [if_pos rfl, ← hwork, Time.value_add,
        ← Node.runningTime_of_markIdle hmarked]
      linarith
    · rw [if_neg hid] at hrow
      have hkept : sim.context.Booked row place start done :=
        hown.of_same rfl hreset.symm
      have hsame : node.id ≠ place := by
        rintro rfl
        exact (hpast id row start done hrow hkept).1 hopen
      rw [if_neg hsame, add_zero, ← hwork]
      exact held place before id row start done hbefore hrow hopen hkept

theorem Charged.settle {ctx : Context ℚ}
    (hcharged : ({ sim with context := ctx } : Simulation ℚ).Charged)
    (decision : Option (Decision ℚ)) (strategy : Strategy ℚ) :
    (sim.settled decision strategy ctx).Charged := by
  apply hcharged.quiet
  · rw [settled_now]
  · rw [settled_context]
  · intro id
    rw [settled_context]
  · rw [settled_context]

theorem Charged.consult {policy : Policy (StateM σ) ℚ}
    {decision : Option (Decision ℚ)} {strategy : Strategy ℚ}
    {ctx : Context ℚ} {before after : σ} (hcharged : sim.Charged)
    (hbooks : sim.Books) (hpunctual : sim.Punctual) (htable : sim.Timetable)
    (hconsults : sim.gateway.strategy.Consults policy sim.gateway.pending
      sim.context sim.queue.now before decision strategy ctx after)
    (hcost : ∀ taken, decision = some taken → 0 ≤ taken.cost.value) :
    (sim.settled decision strategy ctx).Charged := by
  have hswept := sim.context.releaseFinished_deviceBusy sim.queue.now
  have hsampled : ∀ answer, ({ sim with
      context := sim.context.sampled sim.queue.now answer } :
        Simulation ℚ).Charged := by
    intro answer
    apply hcharged.quiet
    · exact le_rfl
    · rw [Context.sampled_topology]
    · intro id
      rw [Context.sampled_task?]
    · exact hswept
  cases hconsults with
  | silent hoffers =>
      apply Charged.settle
      apply hcharged.quiet
      · exact le_rfl
      · rw [Context.releaseFinished_topology]
      · intro id
        rw [Context.releaseFinished_task?]
      · exact hswept
  | full hasked hfull => exact (hsampled _).settle _ _
  | crowded hasked hnames hbusy hnone => exact (hsampled _).settle _ _
  | rejected hasked hnames hbusy hidle => exact (hsampled _).settle _ _
  | @dropped answer _ _ _ _ _ _ hasked hnames hidle hmissed hfeedback =>
      apply Charged.settle
      exact (hsampled answer).quiet le_rfl rfl (fun _ => rfl) rfl
  | @assigned answer _ _ id place task node hasked hnames hidle hmeets
      hfeedback =>
      have htask : sim.context.task? id = some task := by
        simpa using hnames.task_eq
      obtain rfl := hbooks.ledger.numbered id task htask
      obtain ⟨_, _, _, _, _, hplace, _⟩ :=
        hbooks.ledger.pending_alone htask hnames.mem_pending
      obtain ⟨rfl, hnode, hcandidate⟩ :=
        hnames.node_candidate hbooks.occupancy.numbered
      have hdelay : 0 ≤ ((sim.context.sampled sim.queue.now
          answer).network.transferDelay node.datacenter
            task.storage).value := by
        have hnetwork : (sim.context.sampled sim.queue.now answer).network =
            sim.context.network :=
          sim.context.releaseFinished_network sim.queue.now
        rw [hnetwork]
        exact htable.forward.transfer task.id task node.datacenter htask
      have hstart : sim.queue.now.value ≤
          ((sim.context.sampled sim.queue.now answer).startOn task node
            sim.queue.now answer.cost).value := by
        have hpaid := hcost _ rfl
        rw [Context.startOn, Time.value_add, Time.value_add]
        linarith
      have hpast : ∀ other row start done,
          (sim.context.sampled sim.queue.now answer).task? other = some row →
          (sim.context.sampled sim.queue.now answer).Booked row node.id start
            done → row.finish ≠ none ∧ done.value ≤ sim.queue.now.value := by
        intro other row start done hrow hbooked
        rw [Context.sampled_task?] at hrow
        refine hbooks.past_of_idle hpunctual htable hnode hidle hrow
          (hbooked.of_same rfl ?_)
        rw [Context.sampled_topology]
      have hbound := (hsampled answer).bind hnames.task_eq hplace
        hnames.node_eq hidle (List.mem_filter.mp hcandidate).2 hstart hpast
      apply Charged.settle
      exact hbound.quiet le_rfl rfl (fun _ => rfl) rfl

end Simulation

theorem Topology.Built.host_eq {topology : Topology ℚ}
    (hbuilt : topology.Built) {place : NodeId} {node : Node ℚ}
    (hnode : topology.reset.node? place = some node) :
    node.host = place.index := by
  obtain ⟨plan, hplan⟩ := hbuilt
  rw [(ofPlan_ok hplan).1] at hnode
  unfold Topology.node? ofPlanUnchecked at hnode
  simp only [List.getElem?_mapIdx, Option.map_eq_some_iff] at hnode
  obtain ⟨device, _, rfl⟩ := hnode
  rfl

namespace Simulation

variable {gateway : Gateway ℚ} {ctx : Context ℚ} {dataset : Dataset ℚ}

theorem start_charged (hdataset : dataset.Fresh)
    (htopology : ctx.topology.Built) (episode : Nat) :
    (Episode.initial gateway.reset
      (ctx.startEpisode episode dataset.jobs dataset.tasks)).Charged := by
  have hunplaced : ∀ id task,
      (ctx.startEpisode episode dataset.jobs dataset.tasks).task? id =
        some task → task.node = none :=
    fun id task htask => (start_task? hdataset htask).2.node
  have hzero : (Episode.initial gateway.reset (ctx.startEpisode episode
      dataset.jobs dataset.tasks)).queue.now.value = 0 :=
    congrArg Time.value (Episode.arrivals_now dataset.tasks)
  have hwork : ∀ node, (ctx.startEpisode episode dataset.jobs
      dataset.tasks).workOn node = 0 := by
    intro node
    apply List.sum_eq_zero
    intro work hwork
    obtain ⟨task, htask, rfl⟩ := List.mem_map.mp hwork
    rw [(hdataset.numbered.untouched task htask).node, if_neg (by simp)]
  constructor
  case started => exact hzero.ge
  case diary => exact Context.Diary.of_unplaced hunplaced
  case metered =>
    constructor
    case own =>
      intro place node hnode
      exact ⟨(htopology.node? hnode).1, htopology.host_eq hnode⟩
    case sorted => exact List.Pairwise.nil
    case charged => exact fun _ node _ => (hwork node).symm
  case free =>
    intro place node _ _
    rw [hzero]
    exact le_refl _
  case held =>
    intro place node id task start done _ htask _ hbooked
    exact absurd (hunplaced id task htask) hbooked.placed

end Simulation

namespace Moment

variable {σ : Type} {policy : Policy (StateM σ) ℚ} {ending : EndCondition ℚ}
  {before after first last : Moment σ ℚ} {turn : Turn ℚ}
  {turns : List (Turn ℚ)}

theorem Step.charged (hstep : before.Step policy ending turn after)
    (hbooks : before.sim.Books) (hpunctual : before.sim.Punctual)
    (htable : before.sim.Timetable) (hphysical : turn.Physical)
    (hcharged : before.sim.Charged) : after.sim.Charged := by
  cases hstep with
  | quiet hnext hquiet =>
      exact hcharged.hear hbooks hpunctual.ordered htable hnext
  | @consulted event popped sim decision strategy ctx service hnext hprompts
      hsim hdecide =>
      subst hsim
      apply (hcharged.hear hbooks hpunctual.ordered htable hnext).consult
        (hbooks.hear hnext) (hpunctual.hear hnext)
        (htable.hear hpunctual.ordered hnext) (Strategy.decide_ok hdecide)
      rintro taken rfl
      exact hphysical taken rfl

theorem Run.charged (hrun : Run policy ending first turns last)
    (hbooks : first.sim.Books) (hpunctual : first.sim.Punctual)
    (htable : first.sim.Timetable)
    (hphysical : ∀ turn ∈ turns, turn.Physical)
    (hcharged : first.sim.Charged) : last.sim.Charged := by
  induction hrun with
  | done now => exact hcharged
  | turn hstep _ ih =>
      obtain ⟨hturn, hrest⟩ := List.forall_mem_cons.mp hphysical
      exact ih (hstep.books hbooks) (hstep.punctual hpunctual)
        (hstep.timetable hbooks hpunctual.ordered hturn htable) hrest
        (hstep.charged hbooks hpunctual htable hturn hcharged)

end Moment
end FogDispatch
