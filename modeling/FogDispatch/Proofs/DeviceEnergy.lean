import FogDispatch.Proofs.GatewayEnergy
import FogDispatch.Proofs.NodeTimes

/-!
# The energy of the devices

When no event is left, every placed task is done and the tasks of one node ran
one after the other within the clock.  So a node never worked longer than the
clock shows, and the energy of the devices is that of idle devices with the
surcharge of every task on its node.
-/

namespace FogDispatch

structure Task.Ran (task : Task ℚ) (place : NodeId) (start finish : Time ℚ) :
    Prop where
  node_eq : task.node = some place
  start_eq : task.start = some start
  finish_eq : task.finish = some finish

def Task.worked (task : Task ℚ) : ℚ :=
  match task.start, task.finish with
  | some start, some finish => (finish - start).value
  | _, _ => 0

theorem Task.Ran.worked_eq {task : Task ℚ} {place : NodeId}
    {start finish : Time ℚ} (hran : task.Ran place start finish) :
    task.worked = finish.value - start.value := by
  rw [worked, hran.start_eq, hran.finish_eq]
  rfl

/-- What a task on a node takes beyond the energy of the idle node. -/
def Topology.surcharge (topology : Topology ℚ) (task : Task ℚ) : ℚ :=
  match task.node.bind topology.node? with
  | some node => task.length / node.mips *
      (node.power.power node.utilization - node.power.idle)
  | none => 0

/-! ## Sums over nodes and tasks -/

theorem sum_map_of_id {nodes : List (Node ℚ)}
    (hnodup : (nodes.map Node.id).Nodup) {node : Node ℚ}
    (hnode : node ∈ nodes) (weight : Node ℚ → ℚ) :
    (nodes.map fun other =>
      if node.id = other.id then weight other else 0).sum = weight node := by
  induction nodes with
  | nil => cases hnode
  | cons head rest ih =>
      rw [List.map_cons, List.nodup_cons] at hnodup
      obtain ⟨hnew, hrest⟩ := hnodup
      rw [List.map_cons, List.sum_cons]
      rcases List.mem_cons.mp hnode with rfl | hmem
      · have hothers : (rest.map fun other =>
            if node.id = other.id then weight other else 0).sum = 0 := by
          apply List.sum_eq_zero
          intro value hvalue
          obtain ⟨other, hother, rfl⟩ := List.mem_map.mp hvalue
          have hne : node.id ≠ other.id := by
            intro hid
            exact hnew (List.mem_map.mpr ⟨other, hother, hid.symm⟩)
          rw [if_neg hne]
        rw [if_pos rfl, hothers, add_zero]
      · have hne : node.id ≠ head.id := by
          intro hid
          exact hnew (List.mem_map.mpr ⟨node, hmem, hid⟩)
        rw [if_neg hne, zero_add, ih hrest hmem]

/-- Work is summed up by nodes or by tasks alike. -/
theorem sum_workOn (nodes : List (Node ℚ)) (rate : Node ℚ → ℚ)
    (ctx : Context ℚ) :
    (nodes.map fun node => ctx.workOn node * rate node).sum =
      (ctx.tasks.map fun task => (nodes.map fun node =>
        if task.node = some node.id then
          (node.runningTime task.length).value * rate node
        else 0).sum).sum := by
  unfold Context.workOn
  induction ctx.tasks with
  | nil => simp
  | cons task rest ih =>
      rw [List.map_cons, List.sum_cons, ← ih, ← List.sum_map_add]
      congr 2
      funext node
      rw [List.map_cons, List.sum_cons, add_mul, ite_mul, zero_mul]

theorem Topology.nodup_candidates {topology : Topology ℚ}
    (hnumbered : ∀ place node, topology.node? place = some node →
      node.id = place) : (topology.candidates.map Node.id).Nodup := by
  have hids : topology.nodes.map Node.id =
      (List.range topology.nodes.length).map NodeId.mk := by
    apply List.ext_getElem?
    intro index
    rw [List.getElem?_map, List.getElem?_map]
    cases hnode : topology.nodes[index]? with
    | none =>
        have hlength := List.getElem?_eq_none_iff.mp hnode
        rw [List.getElem?_eq_none (by simpa using hlength)]
        rfl
    | some node =>
        obtain ⟨hlength, _⟩ := List.getElem?_eq_some_iff.mp hnode
        rw [List.getElem?_range hlength, Option.map_some, Option.map_some,
          hnumbered ⟨index⟩ node hnode]
  have hnodup : (topology.nodes.map Node.id).Nodup := by
    rw [hids]
    exact List.nodup_range.map fun _ _ hsame => NodeId.mk.inj hsame
  exact hnodup.sublist (List.filter_sublist.map Node.id)

/-- Working time that fits into the clock is counted in full. -/
theorem Node.energy_of_le (node : Node ℚ) {worked : ℚ} {clock : Time ℚ}
    (hfits : worked ≤ clock.value) :
    node.energy worked clock = clock.value * node.power.idle +
      worked * (node.power.power node.utilization - node.power.idle) := by
  have henergy : node.energy worked clock =
      Arith.smaller worked clock.value * node.power.power node.utilization +
        (clock.value - Arith.smaller worked clock.value) *
          node.power.idle := rfl
  rw [henergy, Arith.smaller_eq_min, min_eq_left hfits]
  ring

/-! ## Drained runs -/

namespace Moment

variable {σ : Type} {policy : Policy (StateM σ) ℚ} {ending : EndCondition ℚ}
  {gateway : Gateway ℚ} {ctx : Context ℚ} {episode : Nat}
  {dataset : Dataset ℚ} {service : σ} {turns : List (Turn ℚ)}
  {last : Moment σ ℚ} (hdataset : dataset.Fresh)
  (htopology : ctx.topology.Built) (hdemands : dataset.Physical)
  (hnetwork : ctx.network.Physical)
  (hrun : Run policy ending (start gateway ctx episode dataset service) turns
    last)
  (hphysical : ∀ turn ∈ turns, turn.Physical)

include hdataset htopology hdemands hnetwork hrun hphysical

theorem Run.charges : last.sim.Charged :=
  hrun.charged (start_books hdataset htopology)
    (Simulation.start_punctual hdataset episode)
    (Simulation.start_timetable hdataset htopology hdemands hnetwork episode)
    hphysical (Simulation.start_charged hdataset htopology episode)

/-- Once no event is left, every placed task ran within the clock. -/
theorem Run.ran (hdrained : last.sim.queue.future = []) {id : TaskId}
    {task : Task ℚ} {place : NodeId}
    (htask : last.sim.context.task? id = some task)
    (hplace : task.node = some place) :
    ∃ start finish, task.Ran place start finish ∧
      last.sim.context.Booked task place start finish ∧ 0 ≤ start.value ∧
      start.value ≤ finish.value ∧
      finish.value ≤ last.sim.queue.now.value := by
  have hbooks := Run.books hdataset htopology hrun
  have hpunctual := Run.punctual hdataset hrun
  have htable := Run.exact hdataset htopology hdemands hnetwork hrun hphysical
  have hcharged :=
    Run.charges hdataset htopology hdemands hnetwork hrun hphysical
  have hstarted := hbooks.ledger.started id task htask
  rw [hplace, Option.isSome_some] at hstarted
  obtain ⟨start, hstart⟩ := Option.isSome_iff_exists.mp hstarted
  obtain ⟨node, hnode, _⟩ :=
    hcharged.diary.candidate id task place htask hplace
  have hbooked : last.sim.context.Booked task place start
      (start + node.runningTime task.length) :=
    ⟨hplace, hstart, node, hnode, rfl⟩
  have hfree := hbooks.hosts_of_drained hdrained place id
  cases hnoted : task.finish with
  | none =>
      -- its node would still be taken
      rw [Context.hosts_iff.mpr ⟨task, htask, hplace, hnoted⟩] at hfree
      cases hfree
  | some finish =>
      obtain ⟨_, _, hown⟩ := htable.finished id task finish htask hnoted
      obtain ⟨_, _, hdone⟩ := hbooked.unique hown
      rw [← hdone] at hbooked
      refine ⟨start, finish, ⟨hplace, hstart, hnoted⟩, hbooked,
        hcharged.diary.begun id task place start finish htask hbooked, ?_,
        Time.isBy_iff_le.mp (hpunctual.past id task finish htask hnoted)⟩
      have hrunning := htable.forward.running id task place node htask hnode
      rw [hdone, Time.value_add]
      linarith

/-- The time in which a task ran is its appointment. -/
theorem Run.booked_of_ran (hdrained : last.sim.queue.future = []) {id : TaskId}
    {task : Task ℚ} {place : NodeId} {start finish : Time ℚ}
    (htask : last.sim.context.task? id = some task)
    (hran : task.Ran place start finish) :
    last.sim.context.Booked task place start finish := by
  obtain ⟨begun, ended, hown, hbooked, _⟩ := Run.ran hdataset htopology
    hdemands hnetwork hrun hphysical hdrained htask hran.node_eq
  obtain rfl : start = begun :=
    Option.some.inj (hran.start_eq.symm.trans hown.start_eq)
  obtain rfl : finish = ended :=
    Option.some.inj (hran.finish_eq.symm.trans hown.finish_eq)
  exact hbooked

theorem Run.workOn_eq (hdrained : last.sim.queue.future = [])
    {place : NodeId} {node : Node ℚ}
    (hnode : last.sim.context.topology.node? place = some node) :
    last.sim.context.workOn node = (last.sim.context.tasks.map fun task =>
      if task.node = some node.id then task.worked else 0).sum := by
  have hown := (Run.books hdataset htopology hrun).occupancy.numbered place node
    hnode
  unfold Context.workOn
  congr 1
  apply List.map_congr_left
  intro task htask
  obtain ⟨index, hindex⟩ := List.mem_iff_getElem?.mp htask
  have hknown : last.sim.context.task? ⟨index⟩ = some task := hindex
  split
  next hplace =>
    obtain ⟨start, finish, hran, hbooked, _⟩ := Run.ran hdataset htopology
      hdemands hnetwork hrun hphysical hdrained hknown hplace
    obtain ⟨target, htarget, hspan⟩ := hbooked.span
    rw [hown, hnode, Option.some.injEq] at htarget
    rw [hran.worked_eq, hspan, Time.value_add, htarget, add_sub_cancel_left]
  next => rfl

theorem Run.busy_le (hdrained : last.sim.queue.future = []) {place : NodeId}
    {node : Node ℚ}
    (hnode : last.sim.context.topology.node? place = some node) :
    last.sim.context.metrics.current.deviceBusy.of node.host ≤
      last.sim.queue.now.value := by
  have hidle := (Run.books hdataset htopology hrun).idle_of_drained hdrained
    node (List.mem_of_getElem? hnode)
  exact (Run.charges hdataset htopology hdemands hnetwork hrun
    hphysical).free place node hnode hidle

/-- The devices draw idle power all the time and every task its surcharge. -/
theorem Run.device_energy (hdrained : last.sim.queue.future = []) :
    Arith.sum (last.sim.context.topology.candidates.map fun node =>
      node.energy (last.sim.context.metrics.current.deviceBusy.of node.host)
        last.sim.queue.now) =
      last.sim.queue.now.value *
          (last.sim.context.topology.candidates.map (·.power.idle)).sum +
        (last.sim.context.tasks.map
          last.sim.context.topology.surcharge).sum := by
  set topology := last.sim.context.topology
  have hcharged :=
    Run.charges hdataset htopology hdemands hnetwork hrun hphysical
  have hnode : ∀ node ∈ topology.candidates,
      topology.node? node.id = some node := by
    intro node hmem
    obtain ⟨index, hindex⟩ :=
      List.mem_iff_getElem?.mp (List.mem_of_mem_filter hmem)
    rw [(hcharged.metered.own ⟨index⟩ node hindex).1]
    exact hindex
  have henergy : ∀ node ∈ topology.candidates,
      node.energy (last.sim.context.metrics.current.deviceBusy.of node.host)
          last.sim.queue.now =
        last.sim.queue.now.value * node.power.idle +
          last.sim.context.workOn node *
            (node.power.power node.utilization - node.power.idle) := by
    intro node hmem
    rw [node.energy_of_le (Run.busy_le hdataset htopology hdemands hnetwork
        hrun hphysical hdrained (hnode node hmem)),
      hcharged.metered.charged node.id node (hnode node hmem)]
  rw [Arith.sum_eq_sum, List.map_congr_left henergy, List.sum_map_add,
    List.sum_map_mul_left, sum_workOn]
  congr 2
  apply List.map_congr_left
  intro task htask
  cases hplace : task.node with
  | none => simp [Topology.surcharge, hplace]
  | some place =>
      obtain ⟨index, hindex⟩ := List.mem_iff_getElem?.mp htask
      obtain ⟨node, hchosen, hcandidate⟩ :=
        hcharged.diary.candidate ⟨index⟩ task place hindex hplace
      obtain rfl := (hcharged.metered.own place node hchosen).1
      have hmem : node ∈ topology.candidates :=
        List.mem_filter.mpr ⟨List.mem_of_getElem? hchosen, hcandidate⟩
      have hnodup := Topology.nodup_candidates fun place node hplace =>
        (hcharged.metered.own place node hplace).1
      simp only [Option.some.injEq]
      rw [sum_map_of_id hnodup hmem fun other =>
        (other.runningTime task.length).value *
          (other.power.power other.utilization - other.power.idle)]
      simp only [Topology.surcharge, hplace, Option.bind_some]
      rw [hchosen]
      rfl

end Moment

/-- In an episode that runs until no event is left, with nothing that takes a
negative time, the tasks of one node run one after the other within the clock,
the charged time of the node is theirs, and the energy of the devices is the
idle energy of all candidates with the surcharge of every placed task. -/
theorem Episode.device_energy_itemized {σ : Type}
    {policy : Policy (StateM σ) ℚ} {gateway : Gateway ℚ} {ctx : Context ℚ}
    {episode allotted : Nat} {dataset : Dataset ℚ} {service left : σ}
    {clock : Time ℚ} {final : Simulation ℚ} (hdataset : dataset.Fresh)
    (htopology : ctx.topology.Built) (hdemands : dataset.Physical)
    (hnetwork : ctx.network.Physical)
    (hepisode : (Episode.run allotted policy .drained gateway.reset
      (ctx.startEpisode episode dataset.jobs dataset.tasks)).run service =
        ((.ok clock, final), left))
    (hcosts : ∀ sample ∈ final.context.samples, 0 ≤ sample.time.value) :
    (∀ id task place, final.context.task? id = some task →
      task.node = some place → ∃ start finish, task.Ran place start finish ∧
        0 ≤ start.value ∧ start.value ≤ finish.value ∧
        finish.value ≤ clock.value) ∧
    (∀ id other task row place start finish start' finish', id ≠ other →
      final.context.task? id = some task →
      final.context.task? other = some row → task.Ran place start finish →
      row.Ran place start' finish' →
        finish.value ≤ start'.value ∨ finish'.value ≤ start.value) ∧
    (∀ node ∈ final.context.topology.nodes,
      final.context.metrics.current.deviceBusy.of node.host =
        (final.context.tasks.map fun task =>
          if task.node = some node.id then task.worked else 0).sum ∧
      final.context.metrics.current.deviceBusy.of node.host ≤ clock.value) ∧
    ∃ metrics, (final.context.finishEpisode clock).metrics.finished =
        final.context.metrics.finished ++ [metrics] ∧
      metrics.deviceBusy = final.context.metrics.current.deviceBusy ∧
      metrics.deviceEnergy =
        clock.value *
            (final.context.topology.candidates.map (·.power.idle)).sum +
          (final.context.tasks.map final.context.topology.surcharge).sum := by
  obtain ⟨turns, last, hrun, hnext, hfinal, rfl, _⟩ :=
    Moment.run_of_episode hepisode
  obtain rfl : final = last.sim := hfinal
  have hdrained : last.sim.queue.future = [] :=
    EventQueue.pop?_drained_eq_none (Simulation.next?_eq_none hnext)
  have hphysical := hrun.physical_of_samples hcosts
  have hcharged :=
    Moment.Run.charges hdataset htopology hdemands hnetwork hrun hphysical
  have hreleased := last.sim.context.releaseFinished_deviceBusy
    last.sim.queue.now
  refine ⟨?_, ?_, ?_, _,
    last.sim.context.finishEpisode_finished last.sim.queue.now, hreleased, ?_⟩
  · intro id task place htask hplace
    obtain ⟨start, finish, hran, _, htimes⟩ := Moment.Run.ran hdataset
      htopology hdemands hnetwork hrun hphysical hdrained htask hplace
    exact ⟨start, finish, hran, htimes⟩
  · intro id other task row place start finish start' finish' hne htask hrow
      hran hother
    have hbooked := Moment.Run.booked_of_ran hdataset htopology hdemands
      hnetwork hrun hphysical hdrained htask hran
    have hnext := Moment.Run.booked_of_ran hdataset htopology hdemands
      hnetwork hrun hphysical hdrained hrow hother
    exact hcharged.diary.apart id other task row place start finish start'
      finish' hne htask hrow hbooked hnext
  · intro node hmem
    obtain ⟨index, hindex⟩ := List.mem_iff_getElem?.mp hmem
    have hnode : last.sim.context.topology.node? ⟨index⟩ = some node := hindex
    constructor
    · rw [hcharged.metered.charged ⟨index⟩ node hnode]
      exact Moment.Run.workOn_eq hdataset htopology hdemands hnetwork hrun
        hphysical hdrained hnode
    · exact Moment.Run.busy_le hdataset htopology hdemands hnetwork hrun
        hphysical hdrained hnode
  · have henergy := Moment.Run.device_energy hdataset htopology hdemands
      hnetwork hrun hphysical hdrained
    simp only [EpisodeMetrics.close, hreleased]
    exact henergy

namespace Exact

/-- If both tasks can wait, the second one runs once the first one is done. -/
theorem waiting_episode_ok : ∃ clock final,
    (Episode.run 20 service .drained gateway.reset
      (context.startEpisode 0 (waiting 100).jobs (waiting 100).tasks)).run () =
        ((.ok clock, final), ()) ∧
      final.context.samples.map (·.time.value) = [1, 1, 1] ∧
      final.context.tasks.map (fun task =>
        (task.node, task.start, task.finish)) =
          [(some ⟨0⟩, some ⟨4⟩, some ⟨9 / 2⟩),
            (some ⟨0⟩, some ⟨15 / 2⟩, some ⟨8⟩)] :=
  Episode.ok_of_seen (by decide +kernel)

end Exact

theorem Task.Ran.of_marks {task : Task ℚ} {place : NodeId}
    {start finish : Time ℚ} (hmarks : (task.node, task.start, task.finish) =
      (some place, some start, some finish)) : task.Ran place start finish := by
  simp only [Prod.mk.injEq] at hmarks
  exact ⟨hmarks.1, hmarks.2.1, hmarks.2.2⟩

/-- Two tasks run on the one node, and the times of the one lie apart from those of
the other. -/
theorem Episode.exact_device_energy :
    ∃ clock final metrics task row start finish start' finish',
      (Episode.run 20 Exact.service .drained Exact.gateway.reset
        (Exact.context.startEpisode 0 (Exact.waiting 100).jobs
          (Exact.waiting 100).tasks)).run () = ((.ok clock, final), ()) ∧
      (∀ sample ∈ final.context.samples, 0 ≤ sample.time.value) ∧
      final.context.task? ⟨0⟩ = some task ∧
      final.context.task? ⟨1⟩ = some row ∧
      task.Ran ⟨0⟩ start finish ∧ row.Ran ⟨0⟩ start' finish' ∧
      (finish.value ≤ start'.value ∨ finish'.value ≤ start.value) ∧
      (∀ node ∈ final.context.topology.nodes,
        final.context.metrics.current.deviceBusy.of node.host ≤ clock.value) ∧
      (final.context.finishEpisode clock).metrics.finished =
        final.context.metrics.finished ++ [metrics] ∧
      metrics.deviceBusy = final.context.metrics.current.deviceBusy ∧
      metrics.deviceEnergy =
        clock.value *
            (final.context.topology.candidates.map (·.power.idle)).sum +
          (final.context.tasks.map final.context.topology.surcharge).sum := by
  obtain ⟨clock, final, hepisode, hsamples, hmarks⟩ := Exact.waiting_episode_ok
  have hcosts := Exact.costs_nonneg hsamples
  obtain ⟨task, rest, htasks, hfirst, hrest⟩ := List.map_eq_cons_iff.mp hmarks
  obtain ⟨row, more, rfl, hsecond, _⟩ := List.map_eq_cons_iff.mp hrest
  have htask : final.context.task? ⟨0⟩ = some task := by
    rw [Context.task?, htasks]
    rfl
  have hrow : final.context.task? ⟨1⟩ = some row := by
    rw [Context.task?, htasks]
    rfl
  obtain ⟨_, hapart, hbusy, metrics, hmetrics⟩ := device_energy_itemized
    (Exact.waiting_fresh 100) Exact.topology_built (Exact.waiting_physical 100)
    Exact.network_physical hepisode hcosts
  have hran : task.Ran ⟨0⟩ ⟨4⟩ ⟨9 / 2⟩ := .of_marks hfirst
  have hother : row.Ran ⟨0⟩ ⟨15 / 2⟩ ⟨8⟩ := .of_marks hsecond
  exact ⟨clock, final, metrics, task, row, _, _, _, _, hepisode, hcosts, htask,
    hrow, hran, hother,
    hapart ⟨0⟩ ⟨1⟩ task row ⟨0⟩ _ _ _ _ (by decide) htask hrow hran hother,
    fun node hnode => (hbusy node hnode).2, hmetrics⟩

end FogDispatch
