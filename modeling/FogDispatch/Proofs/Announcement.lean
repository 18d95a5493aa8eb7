import FogDispatch.Proofs.Chronicle

/-!
# What is announced of the devices

Of the cloud nodes an announcement has the first one only, and all cloud nodes
are alike, so the announced nodes are the candidates without the cloud nodes
beyond the first.  Observations have a group of numbers for every candidate.
With a single cloud node, or without any, the groups of an observation are those
of the announced nodes; otherwise each announced node has its group further
back, and there are more groups than announced nodes.
-/

namespace FogDispatch

/-! ## Announced nodes -/

variable {α : Type}

namespace Setup

/-- The announced nodes, a cloud node first. -/
def nodes (setup : Setup α) : List (NodeFeatures α) :=
  setup.cloud.toList ++ setup.fog

/-- A state has groups for the announced nodes, behind `extra` other ones. -/
structure Describes (setup : Setup α) (extra offered : Nat) (state : List α) :
    Prop where
  length : state.length =
    6 * offered + 1 + 4 * (extra + setup.nodes.length)
  groups : ∀ index features, setup.nodes[index]? = some features →
    (state.drop (6 * offered + 1 + 4 * (extra + index))).take 3 =
      [features.mips, features.ram, features.storage]

end Setup

variable [Arith α]

theorem map_filter_mapIdx {β γ δ : Type} {number : Nat → β → γ}
    {keep : γ → Bool} {keep' : β → Bool} {view : γ → δ} {view' : β → δ}
    (hkeep : ∀ index item, keep (number index item) = keep' item)
    (hview : ∀ index item, view (number index item) = view' item)
    (items : List β) :
    ((items.mapIdx number).filter keep).map view =
      (items.filter keep').map view' := by
  induction items generalizing number with
  | nil => rfl
  | cons item rest ih =>
      have hrest := ih (fun index item => hkeep (index + 1) item)
        (fun index item => hview (index + 1) item)
      rw [List.mapIdx_cons, List.filter_cons, List.filter_cons, hkeep]
      by_cases hitem : keep' item = true
      · simp [hitem, hview, hrest]
      · simp [hitem, hrest]

def NodeSpec.features (spec : NodeSpec α) : NodeFeatures α :=
  ⟨spec.mips, spec.ram, spec.storage, spec.busyPower, spec.idlePower⟩

namespace TopologyPlan

variable (plan : TopologyPlan α)

def featuresBy (wanted : NodeKind → Bool) : List (NodeFeatures α) :=
  ((plan.devices.filter (·.2.2.isSound)).filter (wanted ·.2.1)).map
    (·.2.2.features)

theorem features_nodes (wanted : NodeKind → Bool) :
    ((Topology.ofPlanUnchecked plan).nodes.filter fun node =>
      wanted node.kind).map Node.features = plan.featuresBy wanted := by
  apply map_filter_mapIdx
  · intro index device
    rfl
  · intro index device
    rfl

theorem featuresBy_eq (wanted : NodeKind → Bool) :
    plan.featuresBy wanted =
      (if wanted .cloud && plan.cloud.isSound then
        List.replicate plan.cloudNodes plan.cloud.features else []) ++
      (if wanted .fog then
        (plan.drawnFog.filter NodeSpec.isSound).map NodeSpec.features
        else []) ++
      (if wanted .gateway && plan.gateway.isSound then [plan.gateway.features]
        else []) := by
  simp only [featuresBy, devices, List.filter_append, List.map_append]
  congr 1
  · congr 1
    · cases hsound : plan.cloud.isSound <;> cases hwanted : wanted .cloud <;>
        simp [hsound, hwanted]
    · cases hwanted : wanted .fog <;>
        simp [List.filter_map, Function.comp_def, hwanted]
  · cases hsound : plan.gateway.isSound <;> cases hwanted : wanted .gateway <;>
      simp [hsound, hwanted]

/-- The cloud nodes come first among the candidates. -/
theorem features_candidates :
    (Topology.ofPlanUnchecked plan).candidates.map Node.features =
      (Topology.ofPlanUnchecked plan).featuresOf .cloud ++
        (Topology.ofPlanUnchecked plan).featuresOf .fog := by
  have hcandidates := plan.features_nodes (· != .gateway)
  have hcloud := plan.features_nodes (· == .cloud)
  have hfog := plan.features_nodes (· == .fog)
  refine hcandidates.trans (Eq.trans ?_ (congrArg₂ _ hcloud hfog).symm)
  simp [featuresBy_eq]

theorem features_cloud :
    (Topology.ofPlanUnchecked plan).featuresOf .cloud =
      List.replicate (if plan.cloud.isSound then plan.cloudNodes else 0)
        plan.cloud.features := by
  refine (plan.features_nodes (· == .cloud)).trans ?_
  rw [featuresBy_eq]
  cases plan.cloud.isSound <;> simp

theorem length_cloud :
    ((Topology.ofPlanUnchecked plan).featuresOf .cloud).length =
      if plan.cloud.isSound then plan.cloudNodes else 0 := by
  rw [features_cloud, List.length_replicate]

/-- An announcement leaves out the cloud nodes beyond the first. -/
theorem drop_candidates :
    ((Topology.ofPlanUnchecked plan).candidates.map Node.features).drop
        (((Topology.ofPlanUnchecked plan).featuresOf .cloud).length - 1) =
      ((Topology.ofPlanUnchecked plan).featuresOf .cloud).head?.toList ++
        (Topology.ofPlanUnchecked plan).featuresOf .fog := by
  rw [features_candidates, length_cloud, features_cloud]
  generalize (if plan.cloud.isSound = true then plan.cloudNodes else 0) = count
  cases count with
  | zero => simp
  | succ count => simp [List.drop_append_of_le_length, List.head?_replicate]

end TopologyPlan

/-! ## Places in a journal -/

section

variable {β : Type} {front back earlier later : List β} {item last : β}

theorem eq_or_split_of_concat
    (hsame : front ++ [last] = earlier ++ item :: later) :
    (front = earlier ∧ last = item) ∨
      ∃ rest, front = earlier ++ item :: rest := by
  rcases List.eq_nil_or_concat later with rfl | ⟨rest, final, rfl⟩
  · left
    simpa using List.append_inj' hsame rfl
  · right
    rw [List.concat_eq_append, ← List.cons_append, ← List.append_assoc] at hsame
    exact ⟨rest, (List.append_inj' hsame rfl).1⟩

theorem split_of_not_mem (hsame : front ++ back = earlier ++ item :: later)
    (hitem : item ∉ back) : ∃ rest, front = earlier ++ item :: rest := by
  rcases List.append_eq_append_iff.mp hsame with ⟨more, rfl, hback⟩ |
    ⟨more, rfl, hback⟩
  · simp [hback] at hitem
  · cases more with
    | nil =>
        rw [List.nil_append] at hback
        simp [← hback] at hitem
    | cons head rest =>
        obtain ⟨rfl, _⟩ := List.cons.inj hback
        exact ⟨rest, rfl⟩

end

/-! ## Announcements and observations -/

/-- The number of cloud nodes that an announcement leaves out. -/
def Topology.unannounced (topology : Topology α) : Nat :=
  (topology.featuresOf .cloud).length - 1

theorem Trial.nodes_announcement (plan : Plan Binary64) (trial : Trial) :
    (trial.announcement plan).nodes =
      ((trial.topology plan).candidates.map Node.features).drop
        (trial.topology plan).unannounced :=
  (TopologyPlan.drop_candidates (trial.setup plan).topology).symm

theorem Trial.unannounced_eq_zero {plan : Plan Binary64}
    (hcloud : plan.topology.cloudNodes ≤ 1) (trial : Trial) :
    (trial.topology plan).unannounced = 0 := by
  have hlength : ((trial.topology plan).featuresOf .cloud).length ≤ 1 := by
    rw [topology, TopologyPlan.length_cloud]
    split
    next => exact hcloud
    next => exact Nat.zero_le 1
  exact Nat.sub_eq_zero_of_le hlength

theorem Trial.unannounced_le (plan : Plan Binary64) (trial : Trial) :
    (trial.topology plan).unannounced ≤
      (trial.topology plan).candidates.length := by
  have hcandidates : (trial.topology plan).candidates.length =
      ((trial.topology plan).featuresOf .cloud).length +
        ((trial.topology plan).featuresOf .fog).length := by
    rw [← List.length_append, ← List.length_map]
    exact congrArg List.length
      (TopologyPlan.features_candidates (trial.setup plan).topology)
  unfold Topology.unannounced
  omega

theorem Context.Presents.describes {ctx : Context Binary64}
    {plan : Plan Binary64} {trial : Trial} {offered : List TaskId}
    (hpresents : ctx.Presents (trial.topology plan) offered)
    (now : Time Binary64) :
    (trial.announcement plan).Describes (trial.topology plan).unannounced
      offered.length (Strategy.observation ctx offered now) where
  length := by
    rw [hpresents.length_observation, trial.nodes_announcement,
      List.length_drop, List.length_map,
      Nat.add_sub_cancel' (trial.unannounced_le plan)]
  groups index features hfeatures := by
    rw [trial.nodes_announcement, List.getElem?_drop] at hfeatures
    exact hpresents.group_observation now hfeatures

namespace Chronicle

variable {plan : Plan Binary64} {told : Option Trial} {records : List Record}
  {journal : List Entry}

theorem setup_told (hchronicle : Chronicle plan told records journal) :
    (Told.of journal).setup = told.map (Trial.announcement plan) := by
  induction hchronicle with
  | opened => rfl
  | announced trial answered _ _ => simp [Told.hear]
  | @asked trial _ journal request answered hshows _ ih =>
      have hsame : ((Told.of journal).hear (.asked request answered)).setup =
          (Told.of journal).setup := by
        cases request with
        | setup data => exact hshows.elim
        | askDecision number state => rfl
        | saveReward number reward => rfl
        | retrain number state => rfl
        | saveModel episode => rfl
        | nextEpisode => cases answered <;> rfl
      rw [Told.of_append, List.foldl_cons, List.foldl_nil, hsame, ih]
  | recorded record _ ih =>
      have helsewhere := Report.elsewhere_entries (Report.join_series_ne
        plan.outputDir (record.trial.info plan) record.metrics)
      rw [Told.of_append, List.foldl_cons, Record.histories, helsewhere.told]
      exact ih

/-- What a request shows are the devices of the trial announced last. -/
theorem shown (hchronicle : Chronicle plan told records journal)
    {earlier later : List Entry} {request : Request Binary64} {answered : Bool}
    (hjournal : journal = earlier ++ .asked request answered :: later)
    (hsetup : ∀ data, request ≠ .setup data) :
    ∃ trial : Trial,
      (Told.of earlier).setup = some (trial.announcement plan) ∧
        request.Shows (trial.topology plan) := by
  induction hchronicle generalizing later with
  | opened => cases earlier <;> simp at hjournal
  | announced trial _ _ ih =>
      rcases eq_or_split_of_concat hjournal with ⟨_, hlast⟩ | ⟨rest, hrest⟩
      · exact absurd (Entry.asked.inj hlast).1.symm (hsetup _)
      · exact ih hrest
  | @asked trial _ _ _ _ hshows hearlier ih =>
      rcases eq_or_split_of_concat hjournal with ⟨rfl, hlast⟩ | ⟨rest, hrest⟩
      · obtain ⟨rfl, _⟩ := Entry.asked.inj hlast
        exact ⟨trial, hearlier.setup_told, hshows⟩
      · exact ih hrest
  | recorded record _ ih =>
      -- nothing is asked while an episode is recorded
      obtain ⟨rest, hrest⟩ := split_of_not_mem hjournal
        (by simp [Report.entries])
      exact ih hrest

end Chronicle

namespace Entry

def question? : Entry → Option (Nat × List Binary64)
  | .asked (.askDecision number state) _ => some (number, state)
  | _ => none

theorem exists_asked {journal : List Entry} {index number : Nat}
    {state : List Binary64}
    (hquestion : journal[index]?.bind question? = some (number, state)) :
    ∃ answered, journal = journal.take index ++
      .asked (.askDecision number state) answered ::
        journal.drop (index + 1) := by
  obtain ⟨entry, hentry, hasked⟩ := Option.bind_eq_some_iff.mp hquestion
  obtain ⟨hindex, rfl⟩ := List.getElem?_eq_some_iff.mp hentry
  unfold question? at hasked
  split at hasked
  next answered hsame =>
    cases hasked
    refine ⟨answered, ?_⟩
    rw [← hsame, ← List.drop_eq_getElem_cons hindex, List.take_append_drop]
  next => cases hasked

end Entry

/-- Every observation has a group of numbers for each announced node, in their
order and behind the groups of the cloud nodes that were left out, and no other
groups but those of the offered tasks and the clock.  With at most one cloud
node none is left out. -/
theorem Experiment.announced_nodes {σ : Type} (host : Host (StateM σ))
    (policy : Policy (StateM σ) Binary64) (allotted : Nat)
    (plan : Plan Binary64) (memory : σ) {earlier later : List Entry}
    {request : Request Binary64} {answered : Bool} {number : Nat}
    {state : List Binary64}
    (hjournal : ((run host.journaled policy.journaled allotted plan).run
      ([], memory)).2.1 = earlier ++ .asked request answered :: later)
    (hstate : request = .askDecision number state ∨
      request = .retrain number state) :
    ∃ (trial : Trial) (ctx : Context Binary64) (offered : List TaskId)
      (now : Time Binary64),
      (Told.of earlier).setup = some (trial.announcement plan) ∧
      state = Strategy.observation ctx offered now ∧
      (∀ id ∈ offered, (ctx.task? id).isSome = true) ∧
      (trial.announcement plan).nodes =
        ((trial.topology plan).candidates.map Node.features).drop
          (trial.topology plan).unannounced ∧
      (trial.announcement plan).Describes (trial.topology plan).unannounced
        offered.length state ∧
      (plan.topology.cloudNodes ≤ 1 →
        (trial.topology plan).unannounced = 0) := by
  obtain ⟨told, records, hchronicle, _⟩ :=
    run_chronicle host policy allotted plan memory
  have hsetup : ∀ data, request ≠ .setup data := by
    rcases hstate with rfl | rfl <;> simp
  obtain ⟨trial, htold, hshows⟩ := hchronicle.shown hjournal hsetup
  have hshown : (trial.topology plan).Shown state := by
    rcases hstate with rfl | rfl <;> exact hshows
  obtain ⟨ctx, offered, now, hpresents, rfl⟩ := hshown
  exact ⟨trial, ctx, offered, now, htold, rfl, hpresents.known,
    trial.nodes_announcement plan, hpresents.describes now,
    fun hcloud => trial.unannounced_eq_zero hcloud⟩

/-- With a single cloud node the first question describes what was announced. -/
theorem Experiment.first_question_described :
    let journal := (Sample.ended 1 ["a"]).2.1
    ∃ number state answered,
      journal = journal.take 2 ++
        .asked (.askDecision number state) answered :: journal.drop 3 ∧
      ∃ (setup : Setup Binary64) (offered : List TaskId),
        (Told.of (journal.take 2)).setup = some setup ∧
        setup.Describes 0 offered.length state := by
  intro journal
  have hasked : (journal[2]?.bind Entry.question?).isSome = true := by
    decide +kernel
  obtain ⟨⟨number, state⟩, hquestion⟩ := Option.isSome_iff_exists.mp hasked
  obtain ⟨answered, hjournal⟩ := Entry.exists_asked hquestion
  obtain ⟨trial, _, offered, _, htold, _, _, _, hdescribes, hnone⟩ :=
    announced_nodes Sample.disk Sample.service 20 (Sample.experiment 1 ["a"])
      () hjournal (.inl rfl)
  rw [hnone (Nat.le_refl 1)] at hdescribes
  exact ⟨number, state, answered, hjournal, _, offered, htold, hdescribes⟩

/-- With two cloud nodes one of them is announced, and the length of a question
fits no number of offered tasks. -/
theorem Experiment.second_cloud_unannounced :
    let plan := Sample.experiment 2 ["a"]
    let journal := (Sample.ended 2 ["a"]).2.1
    (Topology.ofPlan plan.topology).isOk = true ∧
      ∃ setup number state answered,
        journal = journal.take 2 ++
          .asked (.askDecision number state) answered :: journal.drop 3 ∧
        (Told.of (journal.take 2)).setup = some setup ∧
        ∀ offered, state.length ≠ 6 * offered + 1 + 4 * setup.nodes.length := by
  intro plan journal
  have hrun : (Topology.ofPlan plan.topology).isOk = true ∧
      ((journal[2]?.bind Entry.question?).map fun question =>
        question.2.length) = some 15 ∧
      ((Told.of (journal.take 2)).setup.map fun setup =>
        setup.nodes.length) = some 1 := by
    decide +kernel
  obtain ⟨htopology, hasked, htold⟩ := hrun
  obtain ⟨⟨number, state⟩, hquestion, hlength⟩ :=
    Option.map_eq_some_iff.mp hasked
  obtain ⟨answered, hjournal⟩ := Entry.exists_asked hquestion
  obtain ⟨setup, hsetup, hnodes⟩ := Option.map_eq_some_iff.mp htold
  refine ⟨htopology, setup, number, state, answered, hjournal, hsetup, ?_⟩
  intro offered
  rw [hnodes]
  simp only at hlength
  omega

end FogDispatch
