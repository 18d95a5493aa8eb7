import FogDispatch.Proofs.DocumentTexts

/-!
# Requests by their lines

Every request makes one line, and a request whose numbers are finite can be read off
its line: the name of a field tells where it stands, so that the fields that are left
out are known from the others.
-/

namespace FogDispatch

/-! ## The numbers of a request -/

namespace NetworkPlan

def numbers {α : Type} (network : NetworkPlan α) : List α :=
  [network.fogLatency, network.fogUpload, network.fogDownload,
    network.cloudLatency, network.cloudUpload, network.cloudDownload]

end NetworkPlan

namespace Setup

def numbers {α : Type} (s : Setup α) : List α :=
  s.cloud.toList.flatMap NodeFeatures.toList ++
    s.fog.flatMap NodeFeatures.toList ++ s.network.numbers

end Setup

namespace Request

def numbers {α : Type} : Request α → List α
  | setup data => data.numbers
  | askDecision _ state => state
  | saveReward _ reward => [reward]
  | retrain _ state => state
  | saveModel _ => []
  | nextEpisode => []

/-- A request with neither infinite nor undefined numbers. -/
def Finite (request : Request Binary64) : Prop :=
  ∀ a ∈ request.numbers, a.isFinite = true

instance (request : Request Binary64) : Decidable request.Finite :=
  inferInstanceAs (Decidable (∀ a ∈ request.numbers, a.isFinite = true))

end Request

namespace Wire

/-! ## Finite requests have finite documents -/

theorem reals_finite {values : List Binary64}
    (hvalues : ∀ a ∈ values, a.isFinite = true) :
    (Document.list (values.map .real)).Finite :=
  .list (List.forall_mem_map.mpr fun a ha => .real (hvalues a ha))

theorem optional_finite {name : String} {value : Option Document}
    (hvalue : ∀ document ∈ value, document.Finite) :
    ∀ field ∈ optional name value, field.2.Finite := by
  cases value with
  | none => exact fun field hfield => nomatch hfield
  | some document =>
      intro field hfield
      obtain rfl := List.mem_singleton.mp hfield
      exact hvalue document rfl

theorem flag_finite {name : String} (flag : Option Bool) :
    ∀ field ∈ optional name (flag.map .flag), field.2.Finite := by
  refine optional_finite fun document hdocument => ?_
  obtain ⟨b, _, rfl⟩ := Option.map_eq_some_iff.mp hdocument
  exact .flag b

theorem announcement_finite {s : Setup Binary64}
    (hfinite : ∀ a ∈ s.numbers, a.isFinite = true) : (announcement s).Finite := by
  rw [Setup.numbers, List.forall_mem_append, List.forall_mem_append] at hfinite
  obtain ⟨⟨hcloud, hfog⟩, hnetwork⟩ := hfinite
  have hfeatures : ∀ f ∈ s.cloud, (features f).Finite := fun f hf =>
    reals_finite fun a ha =>
      hcloud a (List.mem_flatMap.mpr ⟨f, Option.mem_toList.mpr hf, ha⟩)
  have hlist : (Document.list (s.fog.map features)).Finite :=
    .list (List.forall_mem_map.mpr fun f hf => reals_finite fun a ha =>
      hfog a (List.mem_flatMap.mpr ⟨f, hf, ha⟩))
  have hcloudField : ∀ field ∈ optional "cloud" (s.cloud.map features),
      field.2.Finite := by
    refine optional_finite fun document hdocument => ?_
    obtain ⟨f, hf, rfl⟩ := Option.map_eq_some_iff.mp hdocument
    exact hfeatures f hf
  simp only [NetworkPlan.numbers, List.forall_mem_cons, List.not_mem_nil,
    false_implies, implies_true, and_true] at hnetwork
  obtain ⟨hfogLatency, hfogUpload, hfogDownload, hcloudLatency, hcloudUpload,
    hcloudDownload⟩ := hnetwork
  refine .record ?_
  simp only [List.forall_mem_append, List.forall_mem_cons, List.not_mem_nil,
    false_implies, implies_true, and_true]
  exact ⟨⟨⟨⟨⟨⟨.string _, .string _, .natural _⟩, hcloudField⟩, hlist,
    .real hcloudUpload, .real hcloudDownload, .real hfogUpload,
    .real hfogDownload, .real hfogLatency, .real hcloudLatency, .natural _⟩,
    flag_finite _⟩, flag_finite _⟩, flag_finite _⟩

theorem observed_finite (number : Nat) (state : List Binary64)
    (hstate : ∀ a ∈ state, a.isFinite = true) : (observed number state).Finite := by
  refine .record ?_
  simp only [List.forall_mem_cons, List.not_mem_nil, false_implies, implies_true,
    and_true]
  exact ⟨.natural number, reals_finite hstate⟩

theorem document_finite {request : Request Binary64} (hfinite : request.Finite) :
    (document request).Finite := by
  refine .record (List.forall_mem_cons.mpr ⟨.string _, ?_⟩)
  cases request with
  | setup data => simpa using announcement_finite hfinite
  | askDecision number state =>
      simpa using observed_finite number state hfinite
  | saveReward number reward =>
      have hreward := hfinite reward (List.mem_singleton_self reward)
      have hdata : (Document.record [("action_id", .natural number),
          ("reward", .real reward)]).Finite := by
        refine .record ?_
        simp only [List.forall_mem_cons, List.not_mem_nil, false_implies,
          implies_true, and_true]
        exact ⟨.natural number, .real hreward⟩
      simpa using hdata
  | retrain number state =>
      simpa using observed_finite number state hfinite
  | saveModel episode => simpa using Document.Finite.natural episode
  | nextEpisode => simp

/-! ## Documents tell requests apart -/

/-- The value of a field of a record. -/
def Document.field? (name : String) : Document → Option Document
  | record fields => fields.lookup name
  | _ => none

@[simp] theorem lookup_optional (name key : String) (value : Option Document) :
    (optional name value).lookup key = if key = name then value else none := by
  cases value with
  | none => simp [optional]
  | some document =>
      rw [optional, List.lookup_cons]
      by_cases hkey : key = name
      · simp [hkey]
      · simp [hkey, beq_eq_false_iff_ne.mpr hkey]

theorem real_injective : Function.Injective Document.real :=
  fun _ _ heq => Document.real.inj heq

theorem flag_injective : Function.Injective Document.flag :=
  fun _ _ heq => Document.flag.inj heq

theorem features_injective : Function.Injective features := by
  intro f g heq
  have hlist := List.map_injective_iff.mpr real_injective (Document.list.inj heq)
  cases f
  cases g
  simpa [NodeFeatures.toList] using hlist

/-- Every field of an announcement is found by its name, a field that may be left
out exactly if there is something to say. -/
structure Announces (data : Document) (s : Setup Binary64) : Prop where
  name : data.field? "setup_name" = some (.string s.name)
  strategy : data.field? "strategy" = some (.string s.strategy)
  seed : data.field? "random_seed" = some (.natural s.seed)
  cloud : data.field? "cloud" = s.cloud.map features
  fog : data.field? "fog" = some (.list (s.fog.map features))
  cloudUpload : data.field? "cloud_nodes_upload_bandwidth" =
    some (.real s.network.cloudUpload)
  cloudDownload : data.field? "cloud_nodes_download_bandwidth" =
    some (.real s.network.cloudDownload)
  fogUpload : data.field? "fog_nodes_upload_bandwidth" =
    some (.real s.network.fogUpload)
  fogDownload : data.field? "fog_nodes_download_bandwidth" =
    some (.real s.network.fogDownload)
  fogLatency : data.field? "latency_gateway_fog_node" =
    some (.real s.network.fogLatency)
  cloudLatency : data.field? "latency_gateway_cloud_node" =
    some (.real s.network.cloudLatency)
  priorities : data.field? "priorities_quantity" = some (.natural s.priorities)
  load : data.field? "load_pretrained_model_on" = s.learning.load.map .flag
  training : data.field? "training_on" = s.learning.training.map .flag
  save : data.field? "save_final_model_on" = s.learning.save.map .flag

theorem announces (s : Setup Binary64) : Announces (announcement s) s := by
  constructor <;>
    simp [announcement, Document.field?, List.lookup_append, List.lookup_cons]

theorem Announces.eq {data : Document} {s t : Setup Binary64}
    (hs : Announces data s) (ht : Announces data t) : s = t := by
  have hcloud : s.cloud = t.cloud :=
    Option.map_injective features_injective (hs.cloud.symm.trans ht.cloud)
  have hfog : s.fog = t.fog := List.map_injective_iff.mpr features_injective
    (Document.list.inj (Option.some.inj (hs.fog.symm.trans ht.fog)))
  have hload : s.learning.load = t.learning.load :=
    Option.map_injective flag_injective (hs.load.symm.trans ht.load)
  have htraining : s.learning.training = t.learning.training :=
    Option.map_injective flag_injective (hs.training.symm.trans ht.training)
  have hsave : s.learning.save = t.learning.save :=
    Option.map_injective flag_injective (hs.save.symm.trans ht.save)
  obtain ⟨hsname, hsstrategy, hsseed, -, -, hsup, hsdown, hsfogUp, hsfogDown,
    hsfogLatency, hscloudLatency, hspriorities, -, -, -⟩ := hs
  obtain ⟨htname, htstrategy, htseed, -, -, htup, htdown, htfogUp, htfogDown,
    htfogLatency, htcloudLatency, htpriorities, -, -, -⟩ := ht
  obtain ⟨_, _, _, _, _, ⟨⟩, _, ⟨⟩⟩ := s
  obtain ⟨_, _, _, _, _, ⟨⟩, _, ⟨⟩⟩ := t
  simp_all

theorem reals_eq {values others : List Binary64}
    (heq : values.map Document.real = others.map .real) : values = others :=
  List.map_injective_iff.mpr real_injective heq

/-- The name of a request tells which fields it has. -/
theorem document_injective : Function.Injective document := by
  intro request other heq
  have hfields := Document.record.inj heq
  cases request with
  | setup data =>
      cases other with
      | setup data' =>
          have hdata : announcement data = announcement data' := by
            simpa [Request.name] using hfields
          have hfound := announces data
          rw [hdata] at hfound
          exact congrArg Request.setup (hfound.eq (announces data'))
      | _ => simp [Request.name] at hfields
  | askDecision number state =>
      cases other with
      | askDecision number' state' =>
          obtain ⟨rfl, hstate⟩ : number = number' ∧
              state.map Document.real = state'.map .real := by
            simpa [Request.name, observed] using hfields
          exact congrArg (Request.askDecision number) (reals_eq hstate)
      | _ => simp [Request.name] at hfields
  | saveReward number reward =>
      cases other with
      | saveReward number' reward' =>
          obtain ⟨rfl, rfl⟩ : number = number' ∧ reward = reward' := by
            simpa [Request.name] using hfields
          rfl
      | _ => simp [Request.name] at hfields
  | retrain number state =>
      cases other with
      | retrain number' state' =>
          obtain ⟨rfl, hstate⟩ : number = number' ∧
              state.map Document.real = state'.map .real := by
            simpa [Request.name, observed] using hfields
          exact congrArg (Request.retrain number) (reals_eq hstate)
      | _ => simp [Request.name] at hfields
  | saveModel episode =>
      cases other with
      | saveModel episode' =>
          have hepisode : episode = episode' := by
            simpa [Request.name] using hfields
          exact congrArg Request.saveModel hepisode
      | _ => simp [Request.name] at hfields
  | nextEpisode =>
      cases other with
      | nextEpisode => rfl
      | _ => simp [Request.name] at hfields

end Wire

/-! ## Lines -/

namespace Request

theorem toList_line (request : Request Binary64) :
    request.line.toList = (Wire.document request).chars ++ ['\n'] :=
  String.toList_ofList

theorem line_eq_iff {request other : Request Binary64} (hfinite : request.Finite)
    (hother : other.Finite) : request.line = other.line ↔ request = other := by
  refine ⟨fun hline => ?_, congrArg line⟩
  have htext := congrArg String.toList hline
  rw [toList_line, toList_line] at htext
  exact Wire.document_injective
    ((Wire.document_finite hfinite).eq_of_chars_eq (Wire.document_finite hother)
      (List.append_cancel_right htext))

/-- A request is one line, whatever it holds, and if its numbers are finite, there is
a way to read it off its line. -/
theorem line_unambiguous :
    (∀ request : Request Binary64, ∃ body,
      request.line.toList = body ++ ['\n'] ∧ '\n' ∉ body) ∧
    (∀ request other : Request Binary64, request.Finite → other.Finite →
      (request.line = other.line ↔ request = other)) ∧
    ∃ recover : String → Option (Request Binary64),
      ∀ request, request.Finite → recover request.line = some request := by
  classical
  refine ⟨fun request => ⟨_, toList_line request, Wire.Document.not_mem_chars _⟩,
    fun request other => line_eq_iff, ?_⟩
  let recover (text : String) : Option (Request Binary64) :=
    if h : ∃ request : Request Binary64, request.Finite ∧ request.line = text then
      some h.choose
    else none
  refine ⟨recover, fun request hfinite => ?_⟩
  have hsome : ∃ other : Request Binary64,
      other.Finite ∧ other.line = request.line := ⟨request, hfinite, rfl⟩
  have hrecover : recover request.line = some hsome.choose := dif_pos hsome
  rw [hrecover, (line_eq_iff hsome.choose_spec.1 hfinite).mp hsome.choose_spec.2]

/-- An announcement whose name holds quotes, a backslash and a line end. -/
def disguised (cloudDownload : Binary64) : Setup Binary64 where
  name := "a\",\"strategy\":\"b\\\n"
  strategy := "c"
  seed := 1
  cloud := none
  fog := [⟨⟨0⟩, ⟨0⟩, ⟨0⟩, ⟨0⟩, ⟨1⟩⟩]
  network := ⟨⟨0⟩, ⟨0⟩, ⟨0⟩, ⟨0⟩, ⟨0⟩, cloudDownload⟩
  priorities := 3
  learning := ⟨none, some false, none⟩

/-- The two zeros make two lines. -/
theorem disguised_told_apart :
    (setup (disguised ⟨0⟩)).Finite ∧
      (setup (disguised ⟨0x8000000000000000⟩)).Finite ∧
      (setup (disguised ⟨0⟩)).line ≠
        (setup (disguised ⟨0x8000000000000000⟩)).line ∧
      ∃ body, (setup (disguised ⟨0⟩)).line.toList = body ++ ['\n'] ∧
        '\n' ∉ body := by
  have hplus : (setup (disguised ⟨0⟩)).Finite := by decide
  have hminus : (setup (disguised ⟨0x8000000000000000⟩)).Finite := by decide
  refine ⟨hplus, hminus, fun hline => ?_, line_unambiguous.1 _⟩
  have heq := (line_unambiguous.2.1 _ _ hplus hminus).mp hline
  exact absurd heq (by decide)

end Request
end FogDispatch
