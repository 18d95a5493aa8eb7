import FogDispatch.Proofs.Observations
import FogDispatch.Proofs.Rulings

/-!
# What the places of an answer mean

The service sees the offered tasks and the candidates as groups of numbers, and
answers with places.  The action is read among the tasks that were offered and
among the candidates, and nothing but the note of the answer changes in between,
so a place means the group that stood there when the question was asked.  The
last number of a node's group foretells what can become of the choice.
-/

namespace FogDispatch

theorem getElem?_filterMap_of_isSome {β γ : Type} {view : β → Option γ}
    {items : List β} (hsome : ∀ item ∈ items, (view item).isSome = true)
    (index : Nat) :
    (items.filterMap view)[index]? = items[index]?.bind view := by
  induction items generalizing index with
  | nil => rfl
  | cons item rest ih =>
      obtain ⟨first, hfirst⟩ :=
        Option.isSome_iff_exists.mp (hsome item List.mem_cons_self)
      have hrest : ∀ other ∈ rest, (view other).isSome = true :=
        fun other hother => hsome other (List.mem_cons_of_mem item hother)
      rw [List.filterMap_cons_some hfirst]
      cases index with
      | zero => exact hfirst.symm
      | succ index => exact ih hrest index

variable {α σ : Type} [Arith α]

theorem Context.Indexed.presents {ctx : Context α} {pending : List TaskId}
    (hindexed : ctx.Indexed pending) (strategy : Strategy α) (now : Time α) :
    (ctx.releaseFinished now).Presents ctx.topology
      (strategy.offers pending ctx now) where
  devices := by rw [releaseFinished_topology]
  known id hid := by
    obtain ⟨task, htask⟩ := hindexed.known id (Strategy.mem_offers hid).1
    rw [releaseFinished_task?, htask]
    rfl

namespace Strategy

variable {policy : Policy (StateM σ) α} {strategy : Strategy α}
  {pending : List TaskId} {ctx : Context α} {now : Time α}
  {before middle : σ} {answer : Answer α} {action : List Int} {i j : Nat}
  {task : Task α} {node : Node α}

/-! ## The groups -/

/-- The group at the place of the chosen task is its view. -/
theorem Chooses.task_group (hindexed : ctx.Indexed pending)
    (hchooses : strategy.Chooses pending ctx now action i j task node) :
    ((strategy.view pending ctx now).drop (6 * i)).take 6 = taskView task := by
  refine take_drop_flatMap_of_width length_taskView ?_ _
  rw [getElem?_filterMap_of_isSome (hindexed.presents strategy now).known,
    hchooses.offered, Option.bind_some, Context.releaseFinished_task?]
  exact hchooses.task_eq

/-- The group at the place of the chosen node is its view. -/
theorem Chooses.node_group (hindexed : ctx.Indexed pending)
    (hchooses : strategy.Chooses pending ctx now action i j task node) :
    ((strategy.view pending ctx now).drop
        (6 * (strategy.offers pending ctx now).length + 1 + 4 * j)).take 4 =
      nodeView node := by
  rw [view, observation, Nat.add_assoc,
    ← (hindexed.presents strategy now).length_tasks,
    List.drop_length_add_append, Nat.add_comm, List.drop_succ_cons,
    Context.releaseFinished_topology,
    ← List.append_nil (ctx.topology.candidates.flatMap nodeView)]
  exact take_drop_flatMap_of_width length_nodeView hchooses.node_eq []

/-! ## What becomes of a choice -/

theorem Chooses.result_of_busy (hindexed : ctx.Indexed pending)
    (hasked : strategy.Asked policy pending ctx now before answer middle)
    (hchooses : strategy.Chooses pending ctx now answer.action i j task node)
    (hbusy : node.isIdle = false) :
    ((strategy.decide pending ctx policy now).run before).1.result =
      .ok (some ⟨if ctx.topology.anyCandidateIdle then .rejected node.id
        else .noCapacity, answer.cost⟩) := by
  rw [hasked.decide_eq, (hchooses.names hindexed).follow_eq, act_busy hbusy,
    Context.sampled_topology]

theorem Chooses.result_of_idle {next : Strategy α} {after : σ}
    {acknowledged : Except Fault Unit} (hindexed : ctx.Indexed pending)
    (hasked : strategy.Asked policy pending ctx now before answer middle)
    (hchooses : strategy.Chooses pending ctx now answer.action i j task node)
    (hidle : node.isIdle = true)
    (hfeedback : (strategy.feedback policy
      (ctx.score task node now answer.cost)
      (strategy.view pending ctx now)).run middle =
        ((acknowledged, next), after)) :
    ((strategy.decide pending ctx policy now).run before).1.result =
      acknowledged.map fun _ => some (weigh ctx task node now answer.cost) := by
  rw [← ctx.score_sampled] at hfeedback
  rw [hasked.decide_eq, (hchooses.names hindexed).follow_eq,
    act_idle hidle hfeedback,
    weigh_of_network (ctx.sampled_network now answer)]

/-- What the flag of the chosen node foretells.  A choice of an idle node is
placed or given up, unless the service does not acknowledge it; a choice of a
busy one is refused. -/
structure Foretold (policy : Policy (StateM σ) α) (strategy : Strategy α)
    (pending : List TaskId) (ctx : Context α) (now : Time α) (middle : σ)
    (answer : Answer α) (task : Task α) (node : Node α)
    (result : Except Fault (Option (Decision α))) (flag : α) : Prop where
  flag_eq : flag = if node.isIdle then Arith.zero else Arith.one
  idle : flag = Arith.zero →
    (∃ transfer, result =
      .ok (some ⟨.assigned task.id node.id transfer, answer.cost⟩)) ∨
    result = .ok (some ⟨.dropped task.id, answer.cost⟩) ∨
    ∃ fault, result = .error fault ∧
      ((strategy.feedback policy (ctx.score task node now answer.cost)
        (strategy.view pending ctx now)).run middle).1.1 = .error fault
  busy : flag = Arith.one →
    result = .ok (some ⟨.rejected node.id, answer.cost⟩) ∨
    result = .ok (some ⟨.noCapacity, answer.cost⟩)

theorem Chooses.foretold (hdistinct : (Arith.zero : α) ≠ Arith.one)
    (hindexed : ctx.Indexed pending)
    (hasked : strategy.Asked policy pending ctx now before answer middle)
    (hchooses :
      strategy.Chooses pending ctx now answer.action i j task node) :
    Foretold policy strategy pending ctx now middle answer task node
      ((strategy.decide pending ctx policy now).run before).1.result
      (if node.isIdle then Arith.zero else Arith.one) := by
  cases hstate : node.isIdle with
  | true =>
      refine ⟨by rw [hstate], fun _ => ?_, fun hflag => (hdistinct hflag).elim⟩
      cases hfeedback : (strategy.feedback policy
          (ctx.score task node now answer.cost)
          (strategy.view pending ctx now)).run middle with
      | mk reply after =>
          obtain ⟨acknowledged, next⟩ := reply
          rw [hchooses.result_of_idle hindexed hasked hstate hfeedback]
          cases acknowledged with
          | error fault => exact .inr (.inr ⟨fault, rfl, rfl⟩)
          | ok _ =>
              rw [weigh]
              split
              next => exact .inr (.inl rfl)
              next => exact .inl ⟨_, rfl⟩
  | false =>
      refine ⟨by rw [hstate], fun hflag => (hdistinct hflag.symm).elim,
        fun _ => ?_⟩
      rw [hchooses.result_of_busy hindexed hasked hstate]
      split
      next => exact .inl rfl
      next => exact .inr rfl

/-- In the arithmetic of doubles, a question has a group of six numbers for
every offered task, the clock, and a group of four numbers for every candidate.
Places that are in range choose the task and the node of the groups that stand
there, and the last number of the node's group foretells the result. -/
theorem places_mean_groups (policy : Policy (StateM σ) Binary64)
    (strategy : Strategy Binary64) (pending : List TaskId)
    (ctx : Context Binary64) (now : Time Binary64) (memory : σ)
    (hindexed : ctx.Indexed pending)
    (hoffers : strategy.offers pending ctx now ≠ []) :
    let offered := (strategy.offers pending ctx now).length
    let candidates := ctx.topology.candidates.length
    ∃ state later,
      sentBy (strategy.decide pending ctx policy.recorded now) memory =
          .askDecision strategy.number state :: later ∧
        state.length = 6 * offered + 1 + 4 * candidates ∧
        ∀ answer middle i j,
          strategy.Asked policy pending ctx now memory answer middle →
          Points offered candidates strategy.kind answer.action i j →
          ∃ task node flag,
            strategy.Chooses pending ctx now answer.action i j task node ∧
            (state.drop (6 * i)).take 6 =
              [task.length, task.memory, task.storage, task.arrival.value,
                task.deadline.value, Arith.ofNat task.priority.level] ∧
            (state.drop (6 * offered + 1 + 4 * j)).take 4 =
              [node.mips, node.ram, node.storage, flag] ∧
            Foretold policy strategy pending ctx now middle answer task node
              ((strategy.decide pending ctx policy now).run memory).1.result
              flag := by
  intro offered candidates
  obtain ⟨later, hlater⟩ := sentBy_decide policy hoffers memory
  refine ⟨_, later, hlater,
    (hindexed.presents strategy now).length_observation now, ?_⟩
  intro answer middle i j hasked hpoints
  obtain ⟨task, node, hchooses⟩ := exists_chooses hindexed hpoints
  have hdistinct : (Arith.zero : Binary64) ≠ Arith.one := by decide +kernel
  exact ⟨task, node, _, hchooses, hchooses.task_group hindexed,
    hchooses.node_group hindexed, hchooses.foretold hdistinct hindexed hasked⟩

end Strategy

/-- The chosen task stands in the second group, and its node is shown as
idle. -/
theorem Sample.places_mean_groups_chooser :
    opening.Indexed [⟨0⟩, ⟨1⟩] ∧
      scheduler.offers [⟨0⟩, ⟨1⟩] opening ⟨whole 2⟩ ≠ [] ∧
      ∃ state later,
        sentBy (scheduler.decide [⟨0⟩, ⟨1⟩] opening chooser.recorded
          ⟨whole 2⟩) () = .askDecision 0 state :: later ∧
        state.length = 17 ∧
        (state.drop 6).take 6 =
          [whole 5, whole 1, whole 1, whole 2, whole 100, whole 1] ∧
        (state.drop 13).take 4 = [whole 10, whole 8, whole 8, Arith.zero] := by
  have hoffers : scheduler.offers [⟨0⟩, ⟨1⟩] opening ⟨whole 2⟩ ≠ [] := by
    decide +kernel
  obtain ⟨state, later, hsent, hlength, hplaces⟩ :=
    Strategy.places_mean_groups chooser scheduler [⟨0⟩, ⟨1⟩] opening ⟨whole 2⟩
      () opening_indexed hoffers
  obtain ⟨task, node, flag, hchooses, htask, hnode, hforetold⟩ :=
    hplaces chosen () 1 0 chooser_asked chooser_chooses.points
  obtain ⟨rfl, rfl⟩ := chooser_chooses.unique hchooses
  rw [hforetold.flag_eq] at hnode
  exact ⟨opening_indexed, hoffers, state, later, hsent, hlength, htask, hnode⟩

end FogDispatch
