import FogDispatch.Proofs.RewardSigns

/-!
# The energy of a gateway that is cut off

An episode may end while a decision is under way.  The whole window of that
decision counts as busy time, also the part of it behind the final clock, and
the idle time is what busy time leaves of the clock.  The running total of a
decision says what is drawn by the end of its window.  So the last running total
is more than the total by the idle power over the time between the final clock
and the end of the window, as far as the gateway idled at all.  No running total
is more than the total if no decision is under way at the end.
-/

namespace FogDispatch

variable {σ : Type}

theorem le_getLast?_of_pairwise {values : List ℚ} {last : ℚ}
    (hsorted : values.Pairwise (· ≤ ·)) (hlast : values.getLast? = some last) :
    ∀ value ∈ values, value ≤ last := by
  obtain ⟨front, rfl⟩ := List.getLast?_eq_some_iff.mp hlast
  intro value hvalue
  rcases List.mem_append.mp hvalue with hfront | hsame
  · exact (List.pairwise_append.mp hsorted).2.2 value hfront last
      (List.mem_singleton_self last)
  · exact (List.mem_singleton.mp hsame).le

theorem mul_nonpos_iff_of_nonneg {factor amount : ℚ} (hamount : 0 ≤ amount) :
    factor * amount ≤ 0 ↔ factor ≤ 0 ∨ amount = 0 := by
  rcases hamount.eq_or_lt with rfl | hpos
  · simp
  · rw [or_iff_left hpos.ne']
    exact ⟨fun h => le_of_mul_le_mul_right (by rwa [zero_mul]) hpos,
      fun h => mul_nonpos_of_nonpos_of_nonneg h hpos.le⟩

namespace GatewaySample.Within

variable {start clock : ℚ} {sample : GatewaySample ℚ}
  {earlier : List (GatewaySample ℚ)}

/-- The last window is the last to end. -/
theorem of_concat
    (hbegun : ∀ one ∈ earlier ++ [sample], start ≤ one.timestamp.value)
    (hapart : (earlier ++ [sample]).Pairwise Precedes)
    (hcosts : ∀ one ∈ earlier ++ [sample], 0 ≤ one.time.value) :
    Within start sample.ended.value (earlier ++ [sample]) := by
  have hlast : sample ∈ earlier ++ [sample] := by simp
  have hopens : sample.timestamp.value ≤ sample.ended.value :=
    le_add_of_nonneg_right (hcosts sample hlast)
  refine ⟨(hbegun sample hlast).trans hopens, hbegun, hapart, ?_, hcosts⟩
  intro one hone
  rcases List.mem_append.mp hone with hearlier | hsame
  · have hbefore : one.Precedes sample :=
      (List.pairwise_append.mp hapart).2.2 one hearlier sample
        (List.mem_singleton_self sample)
    exact hbefore.trans hopens
  · obtain rfl := List.mem_singleton.mp hsame
    exact le_refl _

/-- All windows are over at some time. -/
theorem exists_of_apart {samples : List (GatewaySample ℚ)}
    (hbegun : ∀ one ∈ samples, start ≤ one.timestamp.value)
    (hapart : samples.Pairwise Precedes)
    (hcosts : ∀ one ∈ samples, 0 ≤ one.time.value) :
    ∃ ended, Within start ended samples := by
  rcases samples.eq_nil_or_concat' with rfl | ⟨earlier, sample, rfl⟩
  · exact ⟨start, le_refl _, by simp, List.Pairwise.nil, by simp, by simp⟩
  · exact ⟨_, of_concat hbegun hapart hcosts⟩

end GatewaySample.Within

namespace GatewayEnergy

variable {power : PowerModel ℚ}

theorem runningTotals_concat (power : PowerModel ℚ) (spent : ℚ × ℚ)
    (earlier : List (GatewaySample ℚ)) (sample : GatewaySample ℚ) :
    runningTotals power spent (earlier ++ [sample]) =
      runningTotals power spent earlier ++
        [drawnBy power ((earlier ++ [sample]).foldl (accumulate power) spent)
          sample.ended.value] := by
  induction earlier generalizing spent with
  | nil => rw [List.nil_append, runningTotals_cons]; rfl
  | cons first rest ih =>
      rw [List.cons_append, runningTotals_cons, runningTotals_cons, ih]
      rfl

/-- The total is what is drawn by the clock, or by the end of the busy time
where that does not fit into the clock. -/
theorem total_eq_drawnBy (samples : List (GatewaySample ℚ))
    (power : PowerModel ℚ) (clock : Time ℚ) :
    (ofSamples samples power clock).total =
      drawnBy power (samples.foldl (accumulate power) (0, 0))
        (max clock.value (samples.map (·.time.value)).sum) := by
  have hbusy : (samples.foldl (accumulate power) (0, 0)).1 =
      (samples.map (·.time.value)).sum := by
    rw [accumulate_busy, zero_add]
  change Arith.larger (clock.value -
    (samples.foldl (accumulate power) (0, 0)).1) 0 * power.staticPower +
      (samples.foldl (accumulate power) (0, 0)).2 = _
  rw [Arith.larger_eq_max, drawnBy, hbusy, ← max_sub_sub_right, sub_self]
  exact add_comm _ _

/-- The running total of the last decision, compared with the total. -/
theorem getLast?_series (earlier : List (GatewaySample ℚ))
    (sample : GatewaySample ℚ) (power : PowerModel ℚ) (clock : Time ℚ) :
    (ofSamples (earlier ++ [sample]) power clock).series.getLast? =
      some ((ofSamples (earlier ++ [sample]) power clock).total +
        (sample.ended.value - max clock.value
          ((earlier ++ [sample]).map (·.time.value)).sum) * power.idle) := by
  change (runningTotals power (0, 0) (earlier ++ [sample])).getLast? = _
  rw [runningTotals_concat, List.getLast?_concat, total_eq_drawnBy,
    Option.some.injEq]
  unfold drawnBy PowerModel.staticPower
  ring

section

variable {earlier : List (GatewaySample ℚ)} {sample : GatewaySample ℚ}
  (hwithin : GatewaySample.Within 0 sample.ended.value (earlier ++ [sample]))
  (hidle : 0 ≤ power.idle) (hbusy : 0 ≤ power.busy) (clock : Time ℚ)

include hwithin hidle hbusy

/-- The running totals grow, so none is more than the total if the last one is
not. -/
theorem series_le_total_iff :
    (∀ entry ∈ (ofSamples (earlier ++ [sample]) power clock).series,
        entry ≤ (ofSamples (earlier ++ [sample]) power clock).total) ↔
      sample.ended.value ≤ clock.value ∨
        sample.ended.value =
          ((earlier ++ [sample]).map (·.time.value)).sum ∨
        power.idle = 0 := by
  have hfits : ((earlier ++ [sample]).map (·.time.value)).sum ≤
      sample.ended.value := by
    simpa using hwithin.sum_le
  have hlast := getLast?_series earlier sample power clock
  have hsorted : (ofSamples (earlier ++ [sample]) power
      clock).series.Pairwise (· ≤ ·) :=
    runningTotals_sorted hidle hbusy hwithin (0, 0)
  have hexceeds : (∀ entry ∈ (ofSamples (earlier ++ [sample]) power
      clock).series, entry ≤
        (ofSamples (earlier ++ [sample]) power clock).total) ↔
      (sample.ended.value - max clock.value
        ((earlier ++ [sample]).map (·.time.value)).sum) * power.idle ≤ 0 := by
    constructor
    · intro hall
      have hentry := hall _ (List.mem_of_getLast? hlast)
      linarith
    · intro hnone entry hentry
      have hgreatest := le_getLast?_of_pairwise hsorted hlast entry hentry
      linarith
  rw [hexceeds, mul_nonpos_iff_of_nonneg hidle, sub_nonpos, le_max_iff,
    or_assoc]
  refine or_congr_right (or_congr_left ?_)
  exact ⟨fun hend => le_antisymm hend hfits, le_of_eq⟩

end

end GatewayEnergy

theorem Simulation.now_le_closeClock (sim : Simulation ℚ)
    (ending : EndCondition ℚ) :
    sim.queue.now.value ≤ (sim.closeClock ending).queue.now.value := by
  cases ending with
  | drained => exact le_refl _
  | limit limit => exact Time.isBy_iff_le.mp (Time.isBy_later _ _)

/-- In an episode with decisions that take no negative time and a gateway that
draws no negative power, the running totals grow.  If the gateway is idle at the
time limit, none is more than the total.  Otherwise the last one differs from
the total by what an idle gateway draws from the clock, or the busy time, to the
end of the last window. -/
theorem Episode.gateway_energy_at_limit {policy : Policy (StateM σ) ℚ}
    {gateway : Gateway ℚ} {ctx : Context ℚ} {episode allotted : Nat}
    {dataset : Dataset ℚ} {service left : σ} {limit clock : Time ℚ}
    {final : Simulation ℚ}
    (hepisode : (Episode.run allotted policy (.limit limit) gateway.reset
      (ctx.startEpisode episode dataset.jobs dataset.tasks)).run service =
        ((.ok clock, final), left))
    (hcosts : ∀ sample ∈ final.context.samples, 0 ≤ sample.time.value)
    (hpower : ∀ node, ctx.topology.gateway? = some node →
      0 ≤ node.power.idle ∧ 0 ≤ node.power.busy) :
    ∃ metrics, (final.context.finishEpisode clock).metrics.finished =
        final.context.metrics.finished ++ [metrics] ∧
      metrics.samples = final.context.samples ∧
      metrics.gatewayEnergy.series.Pairwise (· ≤ ·) ∧
      (final.gateway.state = .idle →
        ∀ entry ∈ metrics.gatewayEnergy.series,
          entry ≤ metrics.gatewayEnergy.total) ∧
      ∀ node earlier sample, ctx.topology.gateway? = some node →
        metrics.samples = earlier ++ [sample] →
        metrics.gatewayEnergy.series.getLast? =
          some (metrics.gatewayEnergy.total +
            (sample.ended.value - max clock.value metrics.gatewayBusyTime) *
              node.power.idle) ∧
        ((∀ entry ∈ metrics.gatewayEnergy.series,
            entry ≤ metrics.gatewayEnergy.total) ↔
          sample.ended.value ≤ clock.value ∨
            sample.ended.value = metrics.gatewayBusyTime ∨
            node.power.idle = 0) := by
  obtain ⟨turns, last, hrun, _, hfinal, hclock, _⟩ :=
    Moment.run_of_episode hepisode
  have hsame : final.context = last.sim.context := by
    rw [hfinal, last.sim.closeClock_context]
  have hstate : final.gateway.state = last.sim.gateway.state := by
    rw [hfinal]
    rfl
  have hlater : last.sim.queue.now.value ≤ clock.value := by
    rw [hclock, hfinal]
    exact last.sim.now_le_closeClock _
  rw [hsame] at hcosts ⊢
  rw [hstate]
  have hspaced := hrun.spaced
  obtain ⟨metrics, hfinished, hsamples, henergy⟩ := hrun.closed_energy clock
  rw [← hsamples] at hcosts
  have hbegun : ∀ one ∈ metrics.samples, 0 ≤ one.timestamp.value := by
    rw [hsamples]
    exact hspaced.begun
  have hapart : metrics.samples.Pairwise GatewaySample.Precedes := by
    rw [hsamples]
    exact hspaced.apart
  have hclosed : last.sim.gateway.state = .idle →
      GatewaySample.Within 0 clock.value metrics.samples := by
    intro hidle
    refine ⟨hspaced.started.trans hlater, hbegun, hapart, ?_, hcosts⟩
    rw [hsamples]
    exact fun one hone => (hspaced.closed hidle one hone).trans hlater
  cases hown : ctx.topology.gateway? with
  | none =>
      -- without a gateway nothing is reconstructed
      rw [hown] at henergy
      have hnone : metrics.gatewayEnergy.series = [] := by rw [henergy]; rfl
      simp [hfinished, hsamples, hnone]
  | some device =>
      rw [hown] at henergy
      change metrics.gatewayEnergy =
        GatewayEnergy.ofSamples metrics.samples device.power clock at henergy
      obtain ⟨hidle, hbusy⟩ := hpower device hown
      refine ⟨metrics, hfinished, hsamples, ?_, ?_, ?_⟩
      · obtain ⟨ended, hwithin⟩ :=
          GatewaySample.Within.exists_of_apart hbegun hapart hcosts
        rw [henergy]
        exact GatewayEnergy.runningTotals_sorted hidle hbusy hwithin (0, 0)
      · intro hstopped
        rw [henergy]
        exact (GatewayEnergy.ofSamples_grows (hclosed hstopped) hidle hbusy).2
      · rintro node earlier sample hnode hlast
        obtain rfl : device = node := Option.some.inj hnode
        rw [metrics.gatewayBusyTime_eq_sum, henergy]
        rw [hlast] at hbegun hapart hcosts ⊢
        have hwithin := GatewaySample.Within.of_concat hbegun hapart hcosts
        exact ⟨GatewayEnergy.getLast?_series earlier sample device.power clock,
          GatewayEnergy.series_le_total_iff hwithin hidle hbusy clock⟩

namespace Exact

/-- The first decision takes from one to two, and the episode is cut off in the
middle of it. -/
theorem cut_episode_ok : ∃ clock final,
    (Episode.run 20 service (.limit ⟨3 / 2⟩) gateway.reset
      (context.startEpisode 0 dataset.jobs dataset.tasks)).run () =
        ((.ok clock, final), ()) ∧
      final.context.samples = [⟨⟨1⟩, ⟨1⟩, 0⟩] ∧
      (final.context.finishEpisode clock).metrics.finished.map
        (fun metrics => (metrics.gatewayEnergy.series,
          metrics.gatewayEnergy.total)) = [([2], 3 / 2)] :=
  Episode.ok_of_seen (by decide +kernel)

theorem gateway_power_nonneg :
    ∀ node, context.topology.gateway? = some node →
      0 ≤ node.power.idle ∧ 0 ≤ node.power.busy := by
  intro node hnode
  have hgateway : context.topology.gateway?.map Node.power =
      some ⟨2, 1⟩ := by
    decide +kernel
  rw [hnode, Option.map_some, Option.some.injEq] at hgateway
  rw [hgateway]
  exact ⟨zero_le_one, zero_le_two⟩

end Exact

/-- The running total counts the second from one to two, the total half of
it. -/
theorem Episode.cut_energy_exceeds :
    ∃ clock final metrics entry,
      (Episode.run 20 Exact.service (.limit ⟨3 / 2⟩) Exact.gateway.reset
        (Exact.context.startEpisode 0 Exact.dataset.jobs
          Exact.dataset.tasks)).run () = ((.ok clock, final), ()) ∧
      (∀ sample ∈ final.context.samples, 0 ≤ sample.time.value) ∧
      (∀ node, Exact.context.topology.gateway? = some node →
        0 ≤ node.power.idle ∧ 0 ≤ node.power.busy) ∧
      (final.context.finishEpisode clock).metrics.finished = [metrics] ∧
      entry ∈ metrics.gatewayEnergy.series ∧
      metrics.gatewayEnergy.total < entry := by
  obtain ⟨clock, final, hepisode, hsamples, henergy⟩ := Exact.cut_episode_ok
  obtain ⟨metrics, hfinished, hseries⟩ := List.map_eq_singleton_iff.mp henergy
  rw [Prod.mk.injEq] at hseries
  refine ⟨clock, final, metrics, 2, hepisode, ?_, Exact.gateway_power_nonneg,
    hfinished, ?_, ?_⟩
  · simp [hsamples]
  · simp [hseries.1]
  · rw [hseries.2]
    norm_num

/-- Cut off at one and a half, the last running total is more than the total by
what the gateway draws until two. -/
theorem Episode.exact_energy_at_limit :
    ∃ clock final metrics,
      (Episode.run 20 Exact.service (.limit ⟨3 / 2⟩) Exact.gateway.reset
        (Exact.context.startEpisode 0 Exact.dataset.jobs
          Exact.dataset.tasks)).run () = ((.ok clock, final), ()) ∧
      (∀ sample ∈ final.context.samples, 0 ≤ sample.time.value) ∧
      (∀ node, Exact.context.topology.gateway? = some node →
        0 ≤ node.power.idle ∧ 0 ≤ node.power.busy) ∧
      (final.context.finishEpisode clock).metrics.finished =
        final.context.metrics.finished ++ [metrics] ∧
      metrics.samples = [⟨⟨1⟩, ⟨1⟩, 0⟩] ∧
      metrics.gatewayEnergy.series.Pairwise (· ≤ ·) := by
  obtain ⟨clock, final, hepisode, hsamples, _⟩ := Exact.cut_episode_ok
  have hcosts : ∀ sample ∈ final.context.samples, 0 ≤ sample.time.value := by
    simp [hsamples]
  obtain ⟨metrics, hfinished, hsame, hsorted, _⟩ :=
    gateway_energy_at_limit hepisode hcosts Exact.gateway_power_nonneg
  exact ⟨clock, final, metrics, hepisode, hcosts, Exact.gateway_power_nonneg,
    hfinished, hsame.trans hsamples, hsorted⟩

end FogDispatch
