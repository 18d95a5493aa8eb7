import FogDispatch.Proofs.Chronicle
import FogDispatch.Proofs.RewardSigns

/-!
# The averages of a seed

A report has one row for each episode of a seed, with the averages of that
episode, and the summary of the seed is made up apart from it, from the figures
of all its episodes together.  Both come from the same closed episodes.  Exactly
calculated, an average of the summary is that of its rows where each row counts
by the number of its items, so that no episode is lost and none counts more than
its items do.
-/

namespace FogDispatch

/-! ## Means of parts -/

/-- An average over everything and the averages of its parts, each with the
number of its items, are zero where there are no items. -/
structure ZeroWhereEmpty {α : Type} [Arith α] (overall : α)
    (parts : List (α × Nat)) : Prop where
  empty : (∀ part ∈ parts, part.2 = 0) → overall = Arith.zero
  empty_part : ∀ part ∈ parts, part.2 = 0 → part.1 = Arith.zero

/-- An average over everything counts each part by the number of its items. -/
structure Weighted (overall : ℚ) (parts : List (ℚ × Nat)) : Prop
    extends ZeroWhereEmpty overall parts where
  total : overall * ((parts.map Prod.snd).sum : ℕ) =
    (parts.map fun part => part.1 * (part.2 : ℚ)).sum

namespace Arith

/-- The mean of a list by way of its sum. -/
def average {α : Type} [Arith α] (values : List α) : α :=
  ratioOrZero (sum values) (ofNat values.length)

section

variable {α ι : Type} [Arith α]
  (hzero : same (zero : α) zero = true)

include hzero

theorem ratioOrZero_zero (a : α) : ratioOrZero a (ofNat 0) = zero :=
  if_pos hzero

theorem mean_nil : mean ([] : List α) = zero := ratioOrZero_zero hzero _

theorem average_nil : average ([] : List α) = zero := ratioOrZero_zero hzero _

/-- A mean over everything and any averages of the parts that are zero of
nothing. -/
theorem mean_flatMap_empty {average : List α → α}
    (haverage : average [] = zero) (items : List ι) (figures : ι → List α) :
    ZeroWhereEmpty (mean (items.flatMap figures))
      (items.map fun item =>
        (average (figures item), (figures item).length)) := by
  constructor
  · intro hnone
    have hempty : items.flatMap figures = [] := by
      rw [List.flatMap_eq_nil_iff]
      intro item hitem
      exact List.length_eq_zero_iff.mp
        (hnone _ (List.mem_map.mpr ⟨item, hitem, rfl⟩))
    rw [hempty]
    exact mean_nil hzero
  · rintro _ hmem hnone
    obtain ⟨item, _, rfl⟩ := List.mem_map.mp hmem
    dsimp only at hnone ⊢
    rw [List.length_eq_zero_iff.mp hnone]
    exact haverage

end

theorem same_zero_zero : same (zero : ℚ) zero = true := decide_eq_true rfl

/-- The two ways to sum up differ in the sign of zero alone. -/
theorem average_eq_mean (values : List ℚ) : average values = mean values := by
  have hsum : sum values = sumFrom zero values :=
    congrArg (sumFrom · values) neg_zero
  rw [average, hsum, mean]

theorem mean_mul_length (values : List ℚ) :
    mean values * values.length = values.sum := by
  have hsum : sumFrom zero values = values.sum := sum_eq_sum values
  rw [mean, hsum]
  change (if decide ((values.length : ℚ) = ((0 : ℕ) : ℚ)) then
    ((0 : ℕ) : ℚ) else values.sum / values.length) * values.length = _
  cases values with
  | nil => simp
  | cons value rest =>
      have hpos : ((value :: rest).length : ℚ) ≠ 0 := by
        rw [Nat.cast_ne_zero]
        exact Nat.succ_ne_zero _
      simp only [Nat.cast_zero, hpos, decide_false]
      exact div_mul_cancel₀ _ hpos

/-- The mean of everything weights each part by its number of items. -/
theorem mean_flatMap_weighted {ι : Type} (items : List ι)
    (figures : ι → List ℚ) :
    Weighted (mean (items.flatMap figures))
      (items.map fun item => (mean (figures item), (figures item).length)) := by
  refine ⟨mean_flatMap_empty same_zero_zero (mean_nil same_zero_zero) items
    figures, ?_⟩
  rw [List.map_map, List.map_map]
  have hparts : (items.map fun item =>
      mean (figures item) * (figures item).length) =
        items.map fun item => (figures item).sum :=
    List.map_congr_left fun item _ => mean_mul_length (figures item)
  calc mean (items.flatMap figures) *
        ((items.map fun item => (figures item).length).sum : ℕ)
      = mean (items.flatMap figures) * (items.flatMap figures).length := by
        rw [List.length_flatMap]
    _ = (items.flatMap figures).sum := mean_mul_length _
    _ = (items.map fun item => (figures item).sum).sum := by
        rw [List.flatMap, List.sum_flatten, List.map_map]
        rfl
    _ = (items.map fun item =>
          mean (figures item) * (figures item).length).sum := by
        rw [hparts]

end Arith

/-! ## Accounts of episodes -/

namespace EpisodeMetrics

variable {α β : Type}

/-- The same figures in another arithmetic. -/
def read (value : α → β) (metrics : EpisodeMetrics α) : EpisodeMetrics β where
  episode := metrics.episode
  violations := metrics.violations
  violatedTasks := metrics.violatedTasks
  completions := metrics.completions.map (Prod.map id value)
  rewards := metrics.rewards.map value
  samples := metrics.samples.map fun sample =>
    ⟨⟨value sample.timestamp.value⟩, ⟨value sample.time.value⟩,
      value sample.cpuPercent⟩
  totalCompletion := value metrics.totalCompletion
  totalRunning := value metrics.totalRunning
  completed := metrics.completed
  deviceBusy := ⟨metrics.deviceBusy.entries.map (Prod.map id value)⟩
  clock := ⟨value metrics.clock.value⟩
  deviceEnergy := value metrics.deviceEnergy
  gatewayEnergy := ⟨value metrics.gatewayEnergy.idle,
    value metrics.gatewayEnergy.busy, metrics.gatewayEnergy.series.map value⟩

/-- What the count of completions has more than their list. -/
def unlisted (metrics : EpisodeMetrics α) : Int :=
  metrics.completed - metrics.completions.length

theorem unlisted_eq_zero {metrics : EpisodeMetrics α} :
    metrics.unlisted = 0 ↔
      metrics.completed = metrics.completions.length := by
  unfold unlisted
  omega

variable [Arith α]

theorem recordCompletion_unlisted (metrics : EpisodeMetrics α)
    (task : Task α) :
    (metrics.recordCompletion task).unlisted = metrics.unlisted := by
  unfold recordCompletion unlisted
  split
  next => rfl
  next => simp

end EpisodeMetrics

section

variable {α σ : Type} [Arith α] {policy : Policy (StateM σ) α}
  {ending : EndCondition α}

theorem Context.releaseFinished_unlisted (ctx : Context α) (now : Time α) :
    (ctx.releaseFinished now).metrics.current.unlisted =
      ctx.metrics.current.unlisted :=
  releaseFinished_leaves EpisodeMetrics.recordCompletion_unlisted ctx now

/-- Completions are counted and listed by the sweep alone. -/
theorem Strategy.Consults.unlisted {strategy next : Strategy α}
    {pending : List TaskId} {ctx after : Context α} {now : Time α}
    {before left : σ} {decision : Option (Decision α)}
    (hconsults : strategy.Consults policy pending ctx now before decision next
      after left) :
    after.metrics.current.unlisted = ctx.metrics.current.unlisted := by
  rw [← ctx.releaseFinished_unlisted now]
  cases hconsults <;> rfl

namespace Moment

theorem Step.unlisted {before after : Moment σ α} {turn : Turn α}
    (hstep : before.Step policy ending turn after) :
    after.sim.context.metrics.current.unlisted =
      before.sim.context.metrics.current.unlisted := by
  apply hstep.preserves fun sim => sim.context.metrics.current.unlisted =
    before.sim.context.metrics.current.unlisted
  · intro event popped hnext
    rw [popped.heard_metrics, (Simulation.next?_eq_some hnext).2.1]
  · intro sim decision strategy ctx service hheard _ hconsults
    rw [Simulation.settled_context, hconsults.unlisted, hheard]

theorem Run.unlisted {first last : Moment σ α} {turns : List (Turn α)}
    (hrun : Run policy ending first turns last) :
    last.sim.context.metrics.current.unlisted =
      first.sim.context.metrics.current.unlisted := by
  induction hrun with
  | done now => rfl
  | turn hstep _ ih => rw [ih, hstep.unlisted]

end Moment

/-- Every completion of an episode is counted and listed once. -/
theorem Episode.none_unlisted {allotted : Nat} {gateway : Gateway α}
    {ctx : Context α} {episode : Nat} {jobs : List Job} {tasks : List (Task α)}
    {service left : σ} {clock : Time α} {final : Simulation α}
    (hepisode : (Episode.run allotted policy ending gateway
      (ctx.startEpisode episode jobs tasks)).run service =
        ((.ok clock, final), left)) :
    (final.context.releaseFinished clock).metrics.current.unlisted = 0 := by
  obtain ⟨turns, last, hrun, _, hfinal, _, _⟩ :=
    Moment.run_of_episode hepisode
  rw [Context.releaseFinished_unlisted, hfinal, last.sim.closeClock_context,
    hrun.unlisted]
  rfl

/-- However an episode ends, it is still the same one of the same run. -/
theorem Episode.sameEpisode_of_run {allotted : Nat} {gateway : Gateway α}
    {ctx : Context α} {before after : σ} {result : Except Fault (Time α)}
    {final : Simulation α}
    (hran : (Episode.run allotted policy ending gateway ctx).run before =
      ((result, final), after)) :
    ctx.metrics.SameEpisode final.context.metrics := by
  have hask : ∀ request : Request α, request.OnDecisions →
      Keeps (fun _ => True) (fun _ => True) (policy.ask request) :=
    fun _ _ _ _ => ⟨trivial, trivial⟩
  have hkept :=
    Episode.run_keeps hask allotted ending gateway ctx before trivial
  rw [hran] at hkept
  exact hkept.1

end

/-- A closed episode with everything that its row says about it. -/
structure Account (α : Type) where
  metrics : EpisodeMetrics α
  unplaced : Nat
  nanoseconds : Nat

namespace Account

variable {α β : Type}

def read (value : α → β) (account : Account α) : Account β :=
  { account with metrics := account.metrics.read value }

section

variable [Arith α] (info : RunInfo) (accounts : List (Account α))

def row (account : Account α) : EpisodeRow α :=
  EpisodeRow.ofEpisode info account.metrics account.unplaced
    account.nanoseconds

/-- The averages over all of some episodes. -/
def summary : RunSummary α :=
  RunMetrics.summary ⟨accounts.map metrics, EpisodeMetrics.start 0⟩

/-- The average completion time of each row with the number of completions. -/
def completionShares : List (α × Nat) :=
  accounts.map fun account =>
    ((account.row info).avgCompletion, (account.row info).completed)

/-- The average reward of each row with the number of rewards. -/
def rewardShares : List (α × Nat) :=
  accounts.map fun account =>
    ((account.row info).avgReward, account.metrics.rewards.length)

/-- The average time of the decisions of each row with their number. -/
def busyShares : List (α × Nat) :=
  accounts.map fun account =>
    ((account.row info).avgGatewayBusyTime, account.metrics.samples.length)

end

/-- Every completion is counted and listed once. -/
def Counted (account : Account α) : Prop :=
  account.metrics.completed = account.metrics.completions.length

theorem Counted.read {account : Account α} (hcounted : account.Counted)
    (value : α → β) : (account.read value).Counted :=
  hcounted.trans (List.length_map _).symm

section

variable [Arith α] {accounts : List (Account α)} (info : RunInfo)

theorem completionShares_eq
    (hcounted : ∀ account ∈ accounts, account.Counted) :
    completionShares info accounts = accounts.map fun account =>
      (Arith.mean (account.metrics.completions.map Prod.snd),
        (account.metrics.completions.map Prod.snd).length) := by
  refine List.map_congr_left fun account haccount => ?_
  rw [List.length_map, ← hcounted account haccount]
  rfl

theorem busyShares_eq (accounts : List (Account α)) :
    busyShares info accounts = accounts.map fun account =>
      (Arith.average (account.metrics.samples.map (·.time.value)),
        (account.metrics.samples.map (·.time.value)).length) := by
  refine List.map_congr_left fun account _ => ?_
  rw [Arith.average, List.length_map]
  rfl

theorem summary_avgCompletion :
    (summary accounts).avgCompletion = Arith.mean
      (accounts.flatMap fun account =>
        account.metrics.completions.map Prod.snd) :=
  congrArg Arith.mean (List.flatMap_map ..)

theorem summary_avgReward :
    (summary accounts).avgReward =
      Arith.mean (accounts.flatMap fun account => account.metrics.rewards) :=
  congrArg Arith.mean (List.flatMap_map ..)

theorem summary_avgGatewayBusyTime :
    (summary accounts).avgGatewayBusyTime = Arith.mean
      (accounts.flatMap fun account =>
        account.metrics.samples.map (·.time.value)) :=
  congrArg Arith.mean (List.flatMap_map ..)

/-- Averages over nothing are zero. -/
theorem summary_empty (hzero : Arith.same (Arith.zero : α) Arith.zero = true)
    (hcounted : ∀ account ∈ accounts, account.Counted) :
    ZeroWhereEmpty (summary accounts).avgCompletion
        (completionShares info accounts) ∧
      ZeroWhereEmpty (summary accounts).avgReward (rewardShares info accounts) ∧
      ZeroWhereEmpty (summary accounts).avgGatewayBusyTime
        (busyShares info accounts) := by
  have hmean : Arith.mean ([] : List α) = Arith.zero := Arith.mean_nil hzero
  refine ⟨?_, ?_, ?_⟩
  · rw [summary_avgCompletion, completionShares_eq info hcounted]
    exact Arith.mean_flatMap_empty hzero hmean _ _
  · rw [summary_avgReward]
    exact Arith.mean_flatMap_empty hzero hmean _ _
  · rw [summary_avgGatewayBusyTime, busyShares_eq]
    exact Arith.mean_flatMap_empty hzero (Arith.average_nil hzero) _ _

end

/-- Exactly calculated, the averages of a summary weight those of the rows. -/
theorem summary_weighted {accounts : List (Account ℚ)} (info : RunInfo)
    (hcounted : ∀ account ∈ accounts, account.Counted) :
    Weighted (summary accounts).avgCompletion (completionShares info accounts) ∧
      Weighted (summary accounts).avgReward (rewardShares info accounts) ∧
      Weighted (summary accounts).avgGatewayBusyTime
        (busyShares info accounts) := by
  refine ⟨?_, ?_, ?_⟩
  · rw [summary_avgCompletion, completionShares_eq info hcounted]
    exact Arith.mean_flatMap_weighted _ _
  · rw [summary_avgReward]
    exact Arith.mean_flatMap_weighted _ _
  · rw [summary_avgGatewayBusyTime, busyShares_eq]
    simp only [Arith.average_eq_mean]
    exact Arith.mean_flatMap_weighted _ _

end Account

namespace PriorityTally

theorem count_eq (tally : PriorityTally) (priority : Priority)
    (hindex : priority.level - 1 < 5) :
    tally.count priority = tally[priority.level - 1] := rfl

theorem count_zero (priority : Priority) : zero.count priority = 0 := by
  have hhigh := priority.le_five
  rw [count_eq _ _ (by omega)]
  exact Vector.getElem_replicate _

theorem count_plus (tally other : PriorityTally) (priority : Priority) :
    (tally.plus other).count priority =
      tally.count priority + other.count priority := by
  have hhigh := priority.le_five
  have hindex : priority.level - 1 < 5 := by omega
  rw [count_eq _ _ hindex, count_eq _ _ hindex, count_eq _ _ hindex]
  exact Vector.getElem_zipWith _

theorem count_foldl_plus {ι : Type} (items : List ι)
    (tally : ι → PriorityTally) (start : PriorityTally) (priority : Priority) :
    (items.foldl (fun sum item => sum.plus (tally item)) start).count priority =
      start.count priority +
        (items.map fun item => (tally item).count priority).sum := by
  induction items generalizing start with
  | nil => rfl
  | cons item rest ih =>
      rw [List.foldl_cons, ih, count_plus, List.map_cons, List.sum_cons,
        Nat.add_assoc]

end PriorityTally

theorem Account.summary_violations {α : Type} [Arith α]
    (accounts : List (Account α)) (priority : Priority) :
    (summary accounts).violations.count priority =
      (accounts.map fun account =>
        account.metrics.violations.count priority).sum := by
  have hsum := PriorityTally.count_foldl_plus (accounts.map metrics)
    EpisodeMetrics.violations .zero priority
  rw [PriorityTally.count_zero, Nat.zero_add, List.map_map] at hsum
  exact hsum

/-! ## Programs that may fail -/

/-- Where a program ends without a fault, its value has a property. -/
def Yields {σ β : Type} (Valued : β → Prop)
    (program : StateM σ (Except Fault β)) : Prop :=
  ∀ memory value after, program.run memory = (.ok value, after) → Valued value

namespace Yields

variable {σ β γ : Type} {Valued : β → Prop} {Middle : γ → Prop}

theorem fault {fault : Fault} :
    Yields Valued (Pure.pure (.error fault) : StateM σ (Except Fault β)) := by
  intro memory value after hrun
  cases hrun

theorem pure {value : β} (hvalue : Valued value) :
    Yields Valued (Pure.pure (.ok value) : StateM σ (Except Fault β)) := by
  intro memory value after hrun
  cases hrun
  exact hvalue

theorem bind {first : StateM σ γ} {rest : γ → StateM σ (Except Fault β)}
    (hrest : ∀ before value after, first.run before = (value, after) →
      Yields Valued (rest value)) :
    Yields Valued (first >>= rest) := by
  intro memory value after hrun
  cases hfirst : first.run memory with
  | mk result middle =>
      rw [run_bind_eq hfirst] at hrun
      exact hrest memory result middle hfirst middle value after hrun

theorem andThen {first : StateM σ (Except Fault γ)}
    {rest : Except Fault γ → StateM σ (Except Fault β)}
    (hfirst : Yields Middle first)
    (hfault : ∀ fault, rest (.error fault) = Pure.pure (.error fault))
    (hrest : ∀ value, Middle value → Yields Valued (rest (.ok value))) :
    Yields Valued (first >>= rest) := by
  refine .bind fun before result after hran => ?_
  cases result with
  | error broken =>
      rw [hfault]
      exact .fault
  | ok value => exact hrest value (hfirst before value after hran)

theorem mono {Weaker : β → Prop} {program : StateM σ (Except Fault β)}
    (hyields : Yields Valued program)
    (hweaker : ∀ value, Valued value → Weaker value) :
    Yields Weaker program :=
  fun memory value after hrun => hweaker value
    (hyields memory value after hrun)

theorem anything {program : StateM σ (Except Fault β)} :
    Yields (fun _ => True) program :=
  fun _ _ _ _ => trivial

end Yields

/-- A record that is written adds the row of its episode to the report. -/
theorem Report.record_yields {σ : Type} (host : Host (StateM σ))
    (report : Report) (info : RunInfo) (account : Account Binary64) :
    Yields (fun after : Report =>
        after.rows = report.rows ++ [account.row info])
      (report.record host info account.metrics account.unplaced
        account.nanoseconds) :=
  .andThen .anything (fun _ => rfl) fun _ _ =>
    .andThen .anything (fun _ => rfl) fun _ _ => .pure rfl

namespace Experiment

variable {σ : Type} {host : Host (StateM σ)}
  {policy : Policy (StateM σ) Binary64} {course : Course}

/-- The figures are those of an episode of the course that was run to its
end. -/
def Course.Closes (course : Course) (policy : Policy (StateM σ) Binary64)
    (account : Account Binary64) : Prop :=
  ∃ (gateway : Gateway Binary64) (ctx : Context Binary64) (before after : σ)
    (clock : Time Binary64) (final : Simulation Binary64),
    (Episode.run course.allotted policy course.plan.ending gateway.reset
      (ctx.startEpisode account.metrics.episode course.dataset.jobs
        course.dataset.tasks)).run before = ((.ok clock, final), after) ∧
    (final.context.finishEpisode clock).metrics.finished.getLast? =
      some account.metrics ∧
    final.gateway.unplaced = account.unplaced

theorem Course.Closes.counted {account : Account Binary64}
    (hcloses : course.Closes policy account) : account.Counted := by
  obtain ⟨gateway, ctx, before, after, clock, final, hepisode, hlast, _⟩ :=
    hcloses
  rw [Context.finishEpisode_finished, List.getLast?_concat,
    Option.some.injEq] at hlast
  rw [Account.Counted, ← hlast]
  exact EpisodeMetrics.unlisted_eq_zero.mp (Episode.none_unlisted hepisode)

/-- What a stretch of episodes adds to the closed episodes and to the rows of
the report. -/
structure Course.Accounts (course : Course)
    (policy : Policy (StateM σ) Binary64) (episodes : List Nat)
    (ctx : Context Binary64) (report : Report)
    (accounts : List (Account Binary64)) (ctx' : Context Binary64)
    (report' : Report) : Prop where
  episodes : accounts.map (·.metrics.episode) = episodes
  closes : ∀ account ∈ accounts, course.Closes policy account
  finished : ctx'.metrics.finished =
    ctx.metrics.finished ++ accounts.map Account.metrics
  rows : report'.rows = report.rows ++ accounts.map (Account.row course.info)

theorem Course.Accounts.append {first second : List Nat}
    {ctx middle ctx' : Context Binary64} {report between report' : Report}
    {accounts more : List (Account Binary64)}
    (hfirst : course.Accounts policy first ctx report accounts middle between)
    (hsecond : course.Accounts policy second middle between more ctx'
      report') :
    course.Accounts policy (first ++ second) ctx report (accounts ++ more) ctx'
      report' where
  episodes := by rw [List.map_append, hfirst.episodes, hsecond.episodes]
  closes := List.forall_mem_append.mpr ⟨hfirst.closes, hsecond.closes⟩
  finished := by
    rw [hsecond.finished, hfirst.finished, List.append_assoc, List.map_append]
  rows := by
    rw [hsecond.rows, hfirst.rows, List.append_assoc, List.map_append]

theorem yields_episode (episode : Nat) (gateway : Gateway Binary64)
    (ctx : Context Binary64) (report : Report) :
    Yields (fun value => ∃ account, course.Accounts policy [episode] ctx report
        [account] value.2.1 value.2.2)
      (runEpisode host policy course episode gateway ctx report) := by
  refine .bind fun _ started _ _ => ?_
  refine .bind fun before ended after hran => ?_
  obtain ⟨result, final⟩ := ended
  cases result with
  | error fault => exact .fault
  | ok clock =>
      -- the requests between an episode and its row leave the figures alone
      refine .andThen .anything (fun _ => rfl) fun _ _ => ?_
      refine .andThen .anything (fun _ => rfl) fun _ _ => ?_
      refine .bind fun _ stopped _ _ => ?_
      have hsame := Episode.sameEpisode_of_run hran
      obtain ⟨metrics, hlast, hnumber⟩ :=
        final.context.getLast?_finishEpisode clock
      obtain rfl : metrics.episode = episode := hnumber.trans hsame.episode
      rw [hlast]
      have hrecord := Report.record_yields host report course.info
        ⟨metrics, final.gateway.unplaced, stopped - started⟩
      refine hrecord.andThen (fun _ => rfl) fun after hrows => .pure ?_
      refine ⟨⟨metrics, final.gateway.unplaced, stopped - started⟩, rfl, ?_, ?_,
        hrows⟩
      · rw [List.forall_mem_singleton]
        exact ⟨gateway, ctx, _, _, clock, final, hran, hlast, rfl⟩
      · have hfinished := final.context.finishEpisode_finished clock
        rw [hfinished, List.getLast?_concat, Option.some.injEq] at hlast
        rw [hfinished, hsame.finished, hlast]
        rfl

theorem yields_episodes (left episode : Nat) (gateway : Gateway Binary64)
    (ctx : Context Binary64) (report : Report) :
    Yields (fun value => ∃ accounts, course.Accounts policy
        (List.range' episode left) ctx report accounts value.1 value.2)
      (runEpisodes host policy course left episode gateway ctx report) := by
  induction left generalizing episode gateway ctx report with
  | zero => exact .pure ⟨[], rfl, by simp, by simp, by simp⟩
  | succ left ih =>
      refine (yields_episode episode gateway ctx report).andThen
        (fun _ => rfl) ?_
      rintro ⟨gateway, next, report⟩ ⟨account, hfirst⟩
      exact (ih (episode + 1) gateway next report).mono
        fun _ ⟨accounts, hrest⟩ => ⟨account :: accounts, hfirst.append hrest⟩

theorem yields_seed (allotted : Nat) (plan : Plan Binary64)
    (dataset : Dataset Binary64) (topology : Topology Binary64)
    (gatewayMips : Binary64) (seed : Nat) (report : Report) :
    Yields (fun value : SeedResult × Report => ∃ accounts ctx last,
        (Course.mk plan dataset topology value.1.1 allotted).Accounts policy
          (List.range plan.experiment.episodes) ctx report accounts last
          value.2 ∧
        ctx.metrics.finished = [] ∧ value.1.2 = last.metrics.summary)
      (runSeed host policy allotted plan dataset topology gatewayMips seed
        report) := by
  unfold runSeed
  refine .andThen .anything (fun _ => rfl) fun _ _ => ?_
  rw [List.range_eq_range']
  refine (yields_episodes plan.experiment.episodes 0 _ _ report).andThen
    (fun _ => rfl) ?_
  rintro ⟨last, after⟩ ⟨accounts, haccounts⟩
  exact .pure ⟨accounts, _, last, haccounts, rfl, rfl⟩

/-- The rows that a seed adds to a report and its summary are made up from the
same closed episodes.  Violations are summed up, every row tells the length of
its completion times, averages over nothing are zero, and exactly calculated an
average of the summary weights those of the rows. -/
theorem rows_agree_with_summary {allotted : Nat} {plan : Plan Binary64}
    {dataset : Dataset Binary64} {topology : Topology Binary64}
    {gatewayMips : Binary64} {seed : Nat} {report after : Report}
    {info : RunInfo} {summary : RunSummary Binary64} {memory left : σ}
    (hseed : (runSeed host policy allotted plan dataset topology gatewayMips
      seed report).run memory = (.ok ((info, summary), after), left)) :
    ∃ accounts : List (Account Binary64),
      (∀ account ∈ accounts,
        (Course.mk plan dataset topology info allotted).Closes policy
          account) ∧
      accounts.map (·.metrics.episode) =
        List.range plan.experiment.episodes ∧
      after.rows = report.rows ++ accounts.map (Account.row info) ∧
      summary = Account.summary accounts ∧
      (∀ priority, summary.violations.count priority =
        (accounts.map fun account =>
          (account.row info).violations.count priority).sum) ∧
      (∀ account ∈ accounts, ∃ times,
        (Report.series info account.metrics).head? =
          some (Report.seriesName "completion_time" info.seed
            (account.row info).episode, times) ∧
        (account.row info).completed = times.length) ∧
      (ZeroWhereEmpty summary.avgCompletion
          (Account.completionShares info accounts) ∧
        ZeroWhereEmpty summary.avgReward (Account.rewardShares info accounts) ∧
        ZeroWhereEmpty summary.avgGatewayBusyTime
          (Account.busyShares info accounts)) ∧
      ∀ value : Binary64 → ℚ,
        let rational := accounts.map (Account.read value)
        Weighted (Account.summary rational).avgCompletion
            (Account.completionShares info rational) ∧
          Weighted (Account.summary rational).avgReward
            (Account.rewardShares info rational) ∧
          Weighted (Account.summary rational).avgGatewayBusyTime
            (Account.busyShares info rational) := by
  obtain ⟨accounts, ctx, last, haccounts, hnone, rfl⟩ :=
    yields_seed allotted plan dataset topology gatewayMips seed report _ _ _
      hseed
  have hfinished := haccounts.finished
  rw [hnone, List.nil_append] at hfinished
  have hsummary : last.metrics.summary = Account.summary accounts := by
    unfold RunMetrics.summary Account.summary
    rw [hfinished]
    rfl
  have hcounted : ∀ account ∈ accounts, account.Counted :=
    fun account haccount => (haccounts.closes account haccount).counted
  rw [hsummary]
  refine ⟨accounts, haccounts.closes, haccounts.episodes, haccounts.rows, rfl,
    Account.summary_violations accounts, ?_, ?_, ?_⟩
  · intro account haccount
    refine ⟨_, rfl, ?_⟩
    rw [List.length_map]
    exact hcounted account haccount
  · exact Account.summary_empty info (by decide +kernel) hcounted
  · intro value rational
    apply Account.summary_weighted info
    rw [List.forall_mem_map]
    exact fun account haccount => (hcounted account haccount).read value

end Experiment

namespace Sample

/-- Two episodes of one seed. -/
def rounds : Plan Binary64 :=
  { experiment 1 ["a"] with
    experiment := { (experiment 1 ["a"]).experiment with episodes := 2 } }

def seeded : Except Fault (Experiment.SeedResult × Report) × Unit :=
  (Experiment.runSeed disk service 20 rounds dataset topology (whole 10) 7
    ⟨"out", []⟩).run ()

theorem seed_ok : ∃ info summary after,
    seeded = (.ok ((info, summary), after), ()) ∧
      after.rows.map EpisodeRow.completed = [2, 2] := by
  have hrows : (seeded.1.toOption.map fun value =>
      value.2.rows.map EpisodeRow.completed) = some [2, 2] := by
    decide +kernel
  obtain ⟨⟨⟨info, summary⟩, after⟩, hvalue, hcompleted⟩ :=
    Option.map_eq_some_iff.mp hrows
  cases hseeded : seeded with
  | mk result left =>
      rw [hseeded] at hvalue
      cases result with
      | error fault => cases hvalue
      | ok value =>
          obtain rfl := Option.some.inj hvalue
          exact ⟨info, summary, after, rfl, hcompleted⟩

end Sample

/-- Two episodes with two completions each. -/
theorem Experiment.sample_rows_agree :
    ∃ info summary after accounts,
      (runSeed Sample.disk Sample.service 20 Sample.rounds Sample.dataset
        Sample.topology (Sample.whole 10) 7 ⟨"out", []⟩).run () =
          (.ok ((info, summary), after), ()) ∧
      after.rows = accounts.map (Account.row info) ∧
      after.rows.map EpisodeRow.completed = [2, 2] ∧
      summary = Account.summary accounts ∧
      ∀ value : Binary64 → ℚ,
        Weighted (Account.summary (accounts.map (Account.read value))).avgReward
          (Account.rewardShares info (accounts.map (Account.read value))) := by
  obtain ⟨info, summary, after, hseeded, hcompleted⟩ := Sample.seed_ok
  obtain ⟨accounts, _, _, hrows, hsummary, _, _, _, hexact⟩ :=
    rows_agree_with_summary hseeded
  exact ⟨info, summary, after, accounts, hseeded, hrows, hcompleted, hsummary,
    fun value => (hexact value).2.1⟩

end FogDispatch
