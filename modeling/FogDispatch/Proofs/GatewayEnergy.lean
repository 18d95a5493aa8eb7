import FogDispatch.Proofs.Conservation
import FogDispatch.Proofs.Deadlines
import FogDispatch.Proofs.DecisionWindows

/-!
# The energy of the gateway

The energy of the gateway is reconstructed from the windows of its decisions: it
draws power by its load within them and idle power between them.  As the windows
of an episode lie one after the other within its clock, the running totals never
decrease and none is more than the total.
-/

namespace FogDispatch

/-! ## Exact sums and bounds -/

namespace Arith

theorem larger_eq_max (a b : ℚ) : larger a b = max a b := by
  unfold larger
  rw [max_def_lt]
  simp [same, less]

theorem smaller_eq_min (a b : ℚ) : smaller a b = min a b := by
  unfold smaller
  rw [min_comm, min_def_lt]
  simp [same, less]

theorem sum_eq_sum (values : List ℚ) : sum values = values.sum := by
  have hfold : ∀ start : ℚ, sumFrom start values = start + values.sum := by
    unfold sumFrom
    induction values with
    | nil => simp
    | cons value rest ih =>
        intro start
        rw [List.foldl_cons, ih, List.sum_cons]
        exact add_assoc start value rest.sum
  have hzero : (-zero : ℚ) = 0 := neg_zero
  rw [sum, hfold, hzero, zero_add]

end Arith

variable {σ : Type}

theorem PowerModel.power_nonneg {model : PowerModel ℚ}
    (hidle : 0 ≤ model.idle) (hbusy : 0 ≤ model.busy) (utilization : ℚ) :
    0 ≤ model.power utilization := by
  have hshare : ∀ share : ℚ, 0 ≤ share → share ≤ 1 →
      0 ≤ model.idle + (model.busy - model.idle) * share := by
    intro share hlow hhigh
    have hrest : 0 ≤ model.idle * (1 - share) :=
      mul_nonneg hidle (by linarith)
    have hpart : 0 ≤ model.busy * share := mul_nonneg hbusy hlow
    linarith
  apply hshare
  · rw [Arith.larger_eq_max, Arith.smaller_eq_min]
    exact le_min (le_max_right _ _) zero_le_one
  · rw [Arith.smaller_eq_min]
    exact min_le_right _ _

/-! ## Windows within a stretch of time -/

/-- The windows of decisions lie one after the other between two times. -/
structure GatewaySample.Within (start clock : ℚ)
    (samples : List (GatewaySample ℚ)) : Prop where
  fits : start ≤ clock
  begun : ∀ sample ∈ samples, start ≤ sample.timestamp.value
  apart : samples.Pairwise Precedes
  closed : ∀ sample ∈ samples, sample.ended.value ≤ clock
  costs : ∀ sample ∈ samples, 0 ≤ sample.time.value

namespace GatewaySample.Within

variable {start clock : ℚ} {sample : GatewaySample ℚ}
  {samples : List (GatewaySample ℚ)}

/-- Behind the first window the others lie between its end and the clock. -/
theorem rest (hwithin : Within start clock (sample :: samples)) :
    Within sample.ended.value clock samples := by
  obtain ⟨_, _, hapart, hclosed, hcosts⟩ := hwithin
  obtain ⟨hfirst, hothers⟩ := List.pairwise_cons.mp hapart
  exact ⟨hclosed sample List.mem_cons_self, hfirst, hothers,
    fun other hother => hclosed other (List.mem_cons_of_mem _ hother),
    fun other hother => hcosts other (List.mem_cons_of_mem _ hother)⟩

theorem sum_le (hwithin : Within start clock samples) :
    start + (samples.map (·.time.value)).sum ≤ clock := by
  induction samples generalizing start with
  | nil => simpa using hwithin.fits
  | cons sample samples ih =>
      have hlater := ih hwithin.rest
      have hbegun := hwithin.begun sample List.mem_cons_self
      have hended : sample.ended.value =
          sample.timestamp.value + sample.time.value := rfl
      rw [List.map_cons, List.sum_cons]
      linarith

end GatewaySample.Within

/-! ## Running totals -/

namespace GatewayEnergy

variable {power : PowerModel ℚ}

/-- The energy drawn by a time outside of all windows, of which those before it
took a busy time and a busy energy. -/
def drawnBy (power : PowerModel ℚ) (spent : ℚ × ℚ) (time : ℚ) : ℚ :=
  spent.2 + (time - spent.1) * power.staticPower

theorem drawnBy_mono (hidle : 0 ≤ power.idle) (spent : ℚ × ℚ) {time later : ℚ}
    (hlater : time ≤ later) :
    drawnBy power spent time ≤ drawnBy power spent later := by
  have hidling : 0 ≤ (later - time) * power.staticPower :=
    mul_nonneg (by linarith) hidle
  unfold drawnBy
  linarith

theorem runningTotals_cons (power : PowerModel ℚ) (spent : ℚ × ℚ)
    (sample : GatewaySample ℚ) (samples : List (GatewaySample ℚ)) :
    runningTotals power spent (sample :: samples) =
      drawnBy power (accumulate power spent sample) sample.ended.value ::
        runningTotals power (accumulate power spent sample) samples := by
  have hdrawn : drawnBy power (accumulate power spent sample)
      sample.ended.value = (accumulate power spent sample).2 +
        (sample.timestamp.value - spent.1) * power.staticPower := by
    have hwindow : sample.ended.value - (accumulate power spent sample).1 =
        sample.timestamp.value - spent.1 :=
      add_sub_add_right_eq_sub _ _ _
    rw [drawnBy, hwindow]
  rw [hdrawn]
  rfl

theorem accumulate_busy (power : PowerModel ℚ) (spent : ℚ × ℚ)
    (samples : List (GatewaySample ℚ)) :
    (samples.foldl (accumulate power) spent).1 =
      spent.1 + (samples.map (·.time.value)).sum := by
  induction samples generalizing spent with
  | nil => simp
  | cons sample samples ih =>
      rw [List.foldl_cons, ih, List.map_cons, List.sum_cons]
      exact add_assoc spent.1 sample.time.value _

section

variable (hidle : 0 ≤ power.idle) (hbusy : 0 ≤ power.busy) {start clock : ℚ}

include hidle hbusy

/-- No window takes back energy. -/
theorem drawnBy_le_accumulate (spent : ℚ × ℚ) {sample : GatewaySample ℚ}
    (hbegun : start ≤ sample.timestamp.value)
    (hcost : 0 ≤ sample.time.value) :
    drawnBy power spent start ≤
      drawnBy power (accumulate power spent sample) sample.ended.value := by
  have hdrawn : 0 ≤ sample.time.value *
      power.power (sample.cpuPercent / Arith.ofNat 100) :=
    mul_nonneg hcost (PowerModel.power_nonneg hidle hbusy _)
  have hwindow : drawnBy power (accumulate power spent sample)
      sample.ended.value = drawnBy power spent sample.timestamp.value +
        sample.time.value *
          power.power (sample.cpuPercent / Arith.ofNat 100) := by
    change spent.2 + _ + (sample.timestamp.value + sample.time.value -
      (spent.1 + sample.time.value)) * _ = spent.2 + _ + _
    ring
  rw [hwindow]
  have hbefore := drawnBy_mono hidle spent hbegun
  linarith

theorem drawnBy_le_foldl {samples : List (GatewaySample ℚ)}
    (hwithin : GatewaySample.Within start clock samples) (spent : ℚ × ℚ) :
    drawnBy power spent start ≤
      drawnBy power (samples.foldl (accumulate power) spent) clock := by
  induction samples generalizing start spent with
  | nil => exact drawnBy_mono hidle spent hwithin.fits
  | cons sample samples ih =>
      exact (drawnBy_le_accumulate hidle hbusy spent
        (hwithin.begun sample List.mem_cons_self)
        (hwithin.costs sample List.mem_cons_self)).trans (ih hwithin.rest _)

/-- Every running total lies between what is drawn before the windows and what
is drawn in all. -/
theorem runningTotals_between {samples : List (GatewaySample ℚ)}
    (hwithin : GatewaySample.Within start clock samples) (spent : ℚ × ℚ) :
    ∀ entry ∈ runningTotals power spent samples,
      drawnBy power spent start ≤ entry ∧
        entry ≤ drawnBy power (samples.foldl (accumulate power) spent)
          clock := by
  induction samples generalizing start spent with
  | nil => exact List.forall_mem_nil _
  | cons sample samples ih =>
      have hwindow := drawnBy_le_accumulate hidle hbusy spent
        (hwithin.begun sample List.mem_cons_self)
        (hwithin.costs sample List.mem_cons_self)
      rw [runningTotals_cons, List.forall_mem_cons]
      refine ⟨⟨hwindow, drawnBy_le_foldl hidle hbusy hwithin.rest _⟩, ?_⟩
      intro entry hentry
      obtain ⟨hlow, hhigh⟩ := ih hwithin.rest _ entry hentry
      exact ⟨hwindow.trans hlow, hhigh⟩

theorem runningTotals_sorted {samples : List (GatewaySample ℚ)}
    (hwithin : GatewaySample.Within start clock samples) (spent : ℚ × ℚ) :
    (runningTotals power spent samples).Pairwise (· ≤ ·) := by
  induction samples generalizing start spent with
  | nil => exact List.Pairwise.nil
  | cons sample samples ih =>
      rw [runningTotals_cons]
      refine List.pairwise_cons.mpr ⟨?_, ih hwithin.rest _⟩
      intro entry hentry
      exact (runningTotals_between hidle hbusy hwithin.rest _ entry
        hentry).1

end

/-- As long as the busy time fits into the clock, the total is what is drawn by
then. -/
theorem total_ofSamples {samples : List (GatewaySample ℚ)}
    (power : PowerModel ℚ) (clock : Time ℚ)
    (hfits : (samples.map (·.time.value)).sum ≤ clock.value) :
    (ofSamples samples power clock).idle =
        (clock.value - (samples.map (·.time.value)).sum) * power.idle ∧
      (ofSamples samples power clock).total =
        drawnBy power (samples.foldl (accumulate power) (0, 0))
          clock.value := by
  have hbusy : (samples.foldl (accumulate power) (0, 0)).1 =
      (samples.map (·.time.value)).sum := by
    rw [accumulate_busy, zero_add]
  have hidle : (ofSamples samples power clock).idle =
      (clock.value - (samples.map (·.time.value)).sum) * power.idle := by
    change Arith.larger (clock.value -
      (samples.foldl (accumulate power) (0, 0)).1) 0 * power.idle = _
    rw [Arith.larger_eq_max, hbusy, max_eq_left (by linarith)]
  refine ⟨hidle, ?_⟩
  change (ofSamples samples power clock).idle +
    (samples.foldl (accumulate power) (0, 0)).2 = _
  rw [hidle, drawnBy, hbusy]
  exact add_comm _ _

/-- The energy of windows that fit into the clock grows up to its total. -/
theorem ofSamples_grows {samples : List (GatewaySample ℚ)} {clock : Time ℚ}
    (hwithin : GatewaySample.Within 0 clock.value samples)
    (hidle : 0 ≤ power.idle) (hbusy : 0 ≤ power.busy) :
    (ofSamples samples power clock).series.Pairwise (· ≤ ·) ∧
      ∀ entry ∈ (ofSamples samples power clock).series,
        entry ≤ (ofSamples samples power clock).total := by
  have hfits : (samples.map (·.time.value)).sum ≤ clock.value := by
    simpa using hwithin.sum_le
  refine ⟨runningTotals_sorted hidle hbusy hwithin (0, 0), ?_⟩
  intro entry hentry
  rw [(total_ofSamples power clock hfits).2]
  exact (runningTotals_between hidle hbusy hwithin (0, 0) entry hentry).2

end GatewayEnergy

theorem EpisodeMetrics.gatewayBusyTime_eq_sum (metrics : EpisodeMetrics ℚ) :
    metrics.gatewayBusyTime = (metrics.samples.map (·.time.value)).sum :=
  Arith.sum_eq_sum _

/-! ## Episodes -/

namespace Topology

theorem gateway?_reset (topology : Topology ℚ) :
    topology.reset.gateway? = topology.gateway?.map Node.markIdle :=
  List.find?_map ..

/-- Marks apart, the gateway stays the same device. -/
theorem gateway?_of_reset {topology other : Topology ℚ}
    (hreset : other.reset = topology.reset) :
    other.gateway?.map Node.power = topology.gateway?.map Node.power := by
  have hpower : ∀ found : Option (Node ℚ),
      (found.map Node.markIdle).map Node.power = found.map Node.power := by
    intro found
    rw [Option.map_map]
    rfl
  rw [← hpower, ← gateway?_reset, hreset, gateway?_reset, hpower]

end Topology

namespace Moment

variable {policy : Policy (StateM σ) ℚ} {ending : EndCondition ℚ}
  {gateway : Gateway ℚ} {ctx : Context ℚ} {episode : Nat}
  {dataset : Dataset ℚ} {service : σ} {turns : List (Turn ℚ)}
  {last : Moment σ ℚ}

/-- The windows of a drained run lie one after the other within its clock. -/
theorem Run.samples_within
    (hrun : Run policy ending (start gateway ctx episode dataset service)
      turns last) (hdrained : last.sim.queue.future = [])
    (hcosts : ∀ sample ∈ last.sim.context.samples, 0 ≤ sample.time.value) :
    GatewaySample.Within 0 last.sim.queue.now.value
      last.sim.context.samples :=
  ⟨hrun.spaced.started, hrun.spaced.begun, hrun.spaced.apart,
    hrun.closed_of_drained hdrained, hcosts⟩

/-- The samples of a closed episode are those of its decisions, and its energy
is made up from them by the power of the gateway, if there is one. -/
theorem Run.closed_energy
    (hrun : Run policy ending (start gateway ctx episode dataset service)
      turns last) (clock : Time ℚ) :
    ∃ metrics, (last.sim.context.finishEpisode clock).metrics.finished =
        last.sim.context.metrics.finished ++ [metrics] ∧
      metrics.samples = last.sim.context.samples ∧
      metrics.gatewayEnergy =
        ((ctx.topology.gateway?.map Node.power).map fun power =>
          GatewayEnergy.ofSamples metrics.samples power clock).getD
            GatewayEnergy.zero := by
  have hgateway : last.sim.context.topology.gateway?.map Node.power =
      ctx.topology.gateway?.map Node.power :=
    Topology.gateway?_of_reset
      (hrun.topology_reset.trans (Topology.reset_reset ctx.topology))
  refine ⟨_, last.sim.context.finishEpisode_finished clock,
    last.sim.context.releaseFinished_samples clock, ?_⟩
  rw [← hgateway]
  unfold EpisodeMetrics.close
  cases last.sim.context.topology.gateway? <;> rfl

end Moment

/-- In an episode that runs until no event is left, with decisions that take no
negative time and a gateway that draws no negative power, no decision starts
within an earlier one, their times fit into the clock, and the energy of the
gateway grows from decision to decision up to its total. -/
theorem Episode.gateway_energy_grows {policy : Policy (StateM σ) ℚ}
    {gateway : Gateway ℚ} {ctx : Context ℚ} {episode allotted : Nat}
    {dataset : Dataset ℚ} {service left : σ} {clock : Time ℚ}
    {final : Simulation ℚ}
    (hepisode : (Episode.run allotted policy .drained gateway.reset
      (ctx.startEpisode episode dataset.jobs dataset.tasks)).run service =
        ((.ok clock, final), left))
    (hcosts : ∀ sample ∈ final.context.samples, 0 ≤ sample.time.value)
    (hpower : ∀ node, ctx.topology.gateway? = some node →
      0 ≤ node.power.idle ∧ 0 ≤ node.power.busy) :
    ∃ metrics, (final.context.finishEpisode clock).metrics.finished =
        final.context.metrics.finished ++ [metrics] ∧
      metrics.samples = final.context.samples ∧
      (metrics.samples.Pairwise fun one other =>
        one.timestamp.value + one.time.value ≤ other.timestamp.value) ∧
      metrics.gatewayBusyTime ≤ clock.value ∧
      (∀ node, ctx.topology.gateway? = some node →
        metrics.gatewayEnergy.idle =
          (clock.value - metrics.gatewayBusyTime) * node.power.idle) ∧
      metrics.gatewayEnergy.series.Pairwise (· ≤ ·) ∧
      ∀ entry ∈ metrics.gatewayEnergy.series,
        entry ≤ metrics.gatewayEnergy.total := by
  obtain ⟨turns, last, hrun, hnext, hfinal, rfl, _⟩ :=
    Moment.run_of_episode hepisode
  obtain rfl : final = last.sim := hfinal
  have hdrained : last.sim.queue.future = [] :=
    EventQueue.pop?_drained_eq_none (Simulation.next?_eq_none hnext)
  obtain ⟨metrics, hfinished, hsamples, henergy⟩ :=
    hrun.closed_energy last.sim.queue.now
  have hwithin := hrun.samples_within hdrained hcosts
  rw [← hsamples] at hwithin
  have hbusy : metrics.gatewayBusyTime ≤ last.sim.queue.now.value := by
    rw [metrics.gatewayBusyTime_eq_sum]
    simpa using hwithin.sum_le
  refine ⟨metrics, hfinished, hsamples, hwithin.apart, hbusy, ?_⟩
  cases hown : ctx.topology.gateway? with
  | none =>
      -- without a gateway nothing is reconstructed
      rw [hown] at henergy
      have hnone : metrics.gatewayEnergy.series = [] := by rw [henergy]; rfl
      simp [hnone]
  | some device =>
      rw [hown] at henergy
      change metrics.gatewayEnergy = GatewayEnergy.ofSamples metrics.samples
        device.power last.sim.queue.now at henergy
      obtain ⟨hidle, hfull⟩ := hpower device hown
      rw [henergy]
      refine ⟨?_, GatewayEnergy.ofSamples_grows hwithin hidle hfull⟩
      intro node hnode
      obtain rfl : device = node := Option.some.inj hnode
      rw [metrics.gatewayBusyTime_eq_sum] at hbusy ⊢
      exact (GatewayEnergy.total_ofSamples device.power _ hbusy).1

namespace Exact

theorem episode_ok : ∃ clock final,
    (Episode.run 20 service .drained gateway.reset
      (context.startEpisode 0 dataset.jobs dataset.tasks)).run () =
        ((.ok clock, final), ()) ∧
      clock.value = 11 / 2 ∧
      final.context.samples.map (·.time.value) = [1, 1, 1] :=
  Episode.ok_of_seen (by decide +kernel)

theorem costs_nonneg {ctx : Context ℚ}
    (hsamples : ctx.samples.map (·.time.value) = [1, 1, 1]) :
    ∀ sample ∈ ctx.samples, 0 ≤ sample.time.value := by
  intro sample hsample
  have hcost : sample.time.value ∈ ctx.samples.map (·.time.value) :=
    List.mem_map.mpr ⟨sample, hsample, rfl⟩
  rw [hsamples] at hcost
  have hone : sample.time.value = 1 := by simpa using hcost
  rw [hone]
  exact zero_le_one

end Exact

/-- The three decisions of the small exact episode take a second each. -/
theorem Episode.exact_gateway_energy :
    ∃ clock final metrics,
      (Episode.run 20 Exact.service .drained Exact.gateway.reset
        (Exact.context.startEpisode 0 Exact.dataset.jobs
          Exact.dataset.tasks)).run () = ((.ok clock, final), ()) ∧
      (∀ sample ∈ final.context.samples, 0 ≤ sample.time.value) ∧
      (∀ node, Exact.context.topology.gateway? = some node →
        0 ≤ node.power.idle ∧ 0 ≤ node.power.busy) ∧
      (final.context.finishEpisode clock).metrics.finished =
        final.context.metrics.finished ++ [metrics] ∧
      metrics.samples.length = 3 ∧ clock.value = 11 / 2 ∧
      metrics.gatewayBusyTime ≤ 11 / 2 ∧
      metrics.gatewayEnergy.series.Pairwise (· ≤ ·) ∧
      ∀ entry ∈ metrics.gatewayEnergy.series,
        entry ≤ metrics.gatewayEnergy.total := by
  obtain ⟨clock, final, hepisode, hclock, hsamples⟩ := Exact.episode_ok
  have hcosts := Exact.costs_nonneg hsamples
  have hpower : ∀ node, Exact.context.topology.gateway? = some node →
      0 ≤ node.power.idle ∧ 0 ≤ node.power.busy := by
    intro node hnode
    have hgateway : Exact.context.topology.gateway?.map Node.power =
        some ⟨2, 1⟩ := by
      decide +kernel
    rw [hnode, Option.map_some, Option.some.injEq] at hgateway
    rw [hgateway]
    exact ⟨zero_le_one, zero_le_two⟩
  obtain ⟨metrics, hfinished, hsame, _, hbusy, _, hseries, htotal⟩ :=
    gateway_energy_grows hepisode hcosts hpower
  refine ⟨clock, final, metrics, hepisode, hcosts, hpower, hfinished, ?_,
    hclock, hclock ▸ hbusy, hseries, htotal⟩
  have hlength := congrArg List.length hsamples
  rwa [List.length_map, ← hsame] at hlength

end FogDispatch
