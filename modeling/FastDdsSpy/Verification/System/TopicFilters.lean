import FastDdsSpy.Verification.Instances
import FastDdsSpy.Verification.System.Steps

/-! # Content filters of topics

The controller keeps the topic filters in a dictionary, the backend keeps those that were
last handed over to it. The commands reach the backend through the endpoint database or
not at all. -/

namespace FastDdsSpy.Spy

open Std PastTime

variable {τ π δ : Type*} {env : External} {ts : TypeSupport τ π δ} {cfg : Configuration}

/-- The content filter in effect for a topic name. -/
abbrev effectiveFilter (s : Spy τ) (topicName : String) : String :=
  s.controller.backend.effectiveFilter topicName

/-! ## Clearing -/

/-- If the event clears the topic filters, no topic has a content filter in effect after. -/
def ClearsEverywhere (env : External) (ts : TypeSupport τ π δ) (cfg : Configuration)
    (pre : List (Event τ π)) (e : Event τ π) : Prop :=
  ∀ action, (exec env ts cfg pre).filterAction e = some action → action.clearsTopics = true →
    ∀ topicName, (step env ts (exec env ts cfg pre) e).effectiveFilter topicName = ""

/-- If the event clears the topic filters, every topic with a content filter in effect has
an endpoint in the database. -/
def FiltersCovered (env : External) (ts : TypeSupport τ π δ) (cfg : Configuration)
    (pre : List (Event τ π)) (e : Event τ π) : Prop :=
  ∀ action, (exec env ts cfg pre).filterAction e = some action → action.clearsTopics = true →
    ∀ topicName, (exec env ts cfg pre).effectiveFilter topicName ≠ "" →
      (exec env ts cfg pre).controller.HasEndpoint topicName

/-- The clear commands of a run clear every content filter in effect if and only if each
such filter is on a topic with an endpoint in the database. -/
theorem clearsEverywhere_iff_filtersCovered (env : External) (ts : TypeSupport τ π δ)
    (cfg : Configuration) (es : List (Event τ π)) :
    EachStep (ClearsEverywhere env ts cfg) es ↔ EachStep (FiltersCovered env ts cfg) es := by
  refine forall₂_congr fun pre e => imp_congr_right fun _ => ?_
  refine forall_congr' fun action => imp_congr_right fun ha => imp_congr_right fun hc => ?_
  refine forall_congr' fun topicName => ?_
  have hspec := Controller.perform_spec env (exec env ts cfg pre).controller action
  obtain ⟨hin, hout⟩ := hspec.effective_cleared hc topicName
  rw [effectiveFilter, controller_step_of_action env ts ha]
  constructor
  · intro hempty hne
    by_contra hnone
    exact hne ((hout hnone).symm.trans hempty)
  · intro h
    by_cases hcover : (exec env ts cfg pre).controller.HasEndpoint topicName
    · exact hin hcover
    · rw [hout hcover]
      by_contra hne
      exact hcover (h hne)

/-- A configuration that filters the content of one topic. -/
def withTopicFilter (topicName filter : String) : Configuration :=
  ⟨false, true, ∅, (∅ : ExtTreeMap String String).insert topicName filter⟩

/-- The filter of a topic without endpoints survives `filters clear`. -/
theorem not_clearsEverywhere_undiscovered :
    ¬ EachStep (ClearsEverywhere literal keyedType (withTopicFilter "topic" "id > 1"))
      [.input .filter ["filters", "clear"]] := by
  intro h
  have hempty := h [] (.input .filter ["filters", "clear"]) (List.prefix_refl _) .clearAll rfl rfl
    "topic"
  exact absurd hempty (by decide)

/-! ## Setting and removing -/

theorem partitions_ofConfiguration (cfg : Configuration) :
    (Backend.ofConfiguration cfg).partitions = cfg.allowedPartitionList := by
  have hfold : ∀ (pairs : List (String × String)) (b : Backend),
      (pairs.foldl (fun b pair => b.updateReadersTrackContentFilter pair.1 pair.2) b).partitions =
        b.partitions := by
    intro pairs
    induction pairs with
    | nil => exact fun b => rfl
    | cons pair pairs ih => exact fun b => ih (b.updateReadersTrackContentFilter pair.1 pair.2)
  rw [Backend.ofConfiguration, ExtTreeMap.foldl_eq_foldl_toList]
  exact hfold _ _

/-- The partitions of the backend are the partition filters of the controller. -/
theorem partitions_exec (env : External) (ts : TypeSupport τ π δ) (cfg : Configuration)
    (es : List (Event τ π)) : (exec env ts cfg es).controller.backend.partitions =
      (exec env ts cfg es).controller.partitionFilterSet := by
  apply run_induction (fun s : Spy τ =>
    s.controller.backend.partitions = s.controller.partitionFilterSet)
  · intro s e hs
    cases ha : s.filterAction e with
    | none =>
        have hquiet := step_of_no_action env ts ha
        rw [hquiet.backend_eq, hquiet.partitionFilterSet_eq, hs]
    | some action =>
        rw [controller_step_of_action env ts ha]
        exact Controller.partitions_perform env hs action
  · exact partitions_ofConfiguration cfg

/-- After `es`, the filter of a topic is set, events that do not name the topic follow,
and the filter is removed. -/
structure SetThenRemove (env : External) (ts : TypeSupport τ π δ) (cfg : Configuration)
    (topicName filter : String) (es : List (Event τ π)) (set : Event τ π) (mid : List (Event τ π))
    (remove : Event τ π) : Prop where
  set_accepted : (exec env ts cfg es).filterAction set = some (.setTopic topicName filter)
  mid_other : EachStep (fun pre e => ∀ action,
    (exec env ts cfg (es ++ set :: pre)).filterAction e = some action →
      ¬ action.Names topicName) mid
  remove_accepted : (exec env ts cfg (es ++ set :: mid)).filterAction remove =
    some (.removeTopic topicName)

/-- The removal leaves the topic without a content filter in effect, and the filters of the
other topics and the partitions as it found them. -/
def SetUndone (topicName : String) (s s' : Spy τ) : Prop :=
  s'.effectiveFilter topicName = "" ∧
    (∀ other, other ≠ topicName → s'.effectiveFilter other = s.effectiveFilter other) ∧
    s'.controller.backend.partitions = s.controller.backend.partitions

/-- Among the events was a `filters clear` while the topic had an endpoint. -/
def ClearedBetween (env : External) (ts : TypeSupport τ π δ) (cfg : Configuration)
    (topicName : String) (es : List (Event τ π)) (set : Event τ π) (mid : List (Event τ π)) :
    Prop :=
  Once (fun pre e =>
    (exec env ts cfg (es ++ set :: pre)).filterAction e = some .clearAll ∧
      (exec env ts cfg (es ++ set :: pre)).controller.HasEndpoint topicName) mid

theorem clearedBetween_concat {topicName : String} {es mid : List (Event τ π)}
    {set e : Event τ π} : ClearedBetween env ts cfg topicName es set (mid ++ [e]) ↔
      ((exec env ts cfg (es ++ set :: mid)).filterAction e = some .clearAll ∧
        (exec env ts cfg (es ++ set :: mid)).controller.HasEndpoint topicName) ∨
      ClearedBetween env ts cfg topicName es set mid :=
  once_concat

/-- An action that does not name the topic and leaves it in the dictionary leaves its
content filter alone, unless it is a `filters clear` that finds an endpoint. -/
theorem effectiveFilter_perform {c : Controller τ} {action : FilterAction} {topicName : String}
    (hother : ¬ action.Names topicName)
    (hmem : topicName ∈ (c.perform env action).topicFilterDict) :
    topicName ∈ c.topicFilterDict ∧
      (action = .clearAll ∧ c.HasEndpoint topicName →
        (c.perform env action).backend.effectiveFilter topicName = "") ∧
      (¬ (action = .clearAll ∧ c.HasEndpoint topicName) →
        (c.perform env action).backend.effectiveFilter topicName =
          c.backend.effectiveFilter topicName) := by
  have hspec := Controller.perform_spec env c action
  rw [hspec.topicFilterDict_eq] at hmem
  cases action with
  | clearAll =>
      obtain ⟨hin, hout⟩ := hspec.effective_cleared rfl topicName
      exact ⟨by simpa [FilterAction.topics] using hmem, fun h => hin h.2,
        fun h => hout (fun hcover => h ⟨rfl, hcover⟩)⟩
  | clearTopics => simp [FilterAction.topics] at hmem
  | removeTopic other =>
      have hne : other ≠ topicName := by
        rintro rfl
        exact hother (.inl rfl)
      exact ⟨by simpa [FilterAction.topics, hne] using hmem, by simp,
        fun _ => hspec.effective_kept rfl (by simp) topicName⟩
  | setTopic other filter =>
      have hne : other ≠ topicName := by
        rintro rfl
        exact hother (.inr ⟨filter, rfl⟩)
      refine ⟨by simpa [FilterAction.topics, hne] using hmem, by simp, fun _ => ?_⟩
      rw [hspec.effective_set other filter rfl, if_neg hne]
  | clearPartitions | addPartition | removePartition =>
      exact ⟨hmem, by simp, fun _ => hspec.effective_kept rfl (by simp) topicName⟩

/-- Since the filter of the topic was set: while the topic is in the dictionary, only a
`filters clear` can have reached the backend. -/
theorem effectiveFilter_since_set {topicName filter : String} {es mid : List (Event τ π)}
    {set : Event τ π}
    (hset : (exec env ts cfg es).filterAction set = some (.setTopic topicName filter))
    (hmid : EachStep (fun pre e => ∀ action,
      (exec env ts cfg (es ++ set :: pre)).filterAction e = some action →
        ¬ action.Names topicName) mid)
    (hmem : topicName ∈ (exec env ts cfg (es ++ set :: mid)).controller.topicFilterDict) :
    (exec env ts cfg (es ++ set :: mid)).effectiveFilter topicName = "" ↔
      filter = "" ∨ ClearedBetween env ts cfg topicName es set mid := by
  induction mid using List.reverseRecOn with
  | nil =>
      have hspec := Controller.perform_spec env (exec env ts cfg es).controller
        (.setTopic topicName filter)
      have heff := hspec.effective_set topicName filter rfl topicName
      rw [if_pos rfl] at heff
      rw [exec_concat, effectiveFilter, controller_step_of_action env ts hset, heff]
      simp [ClearedBetween, not_once_nil]
  | append_singleton mid e ih =>
      obtain ⟨hmid, hlast⟩ := eachStep_concat.mp hmid
      have hsplit : es ++ set :: (mid ++ [e]) = (es ++ set :: mid) ++ [e] := by simp
      rw [hsplit, exec_concat] at hmem ⊢
      rw [clearedBetween_concat]
      cases ha : (exec env ts cfg (es ++ set :: mid)).filterAction e with
      | none =>
          have hquiet := step_of_no_action env ts ha
          rw [hquiet.topicFilterDict_eq] at hmem
          rw [effectiveFilter, hquiet.backend_eq]
          simpa using ih hmid hmem
      | some action =>
          have hcontroller := controller_step_of_action env ts ha
          rw [hcontroller] at hmem
          obtain ⟨hold, hcleared, hkept⟩ := effectiveFilter_perform (hlast action ha) hmem
          rw [effectiveFilter, hcontroller]
          by_cases hc : action = .clearAll ∧
              (exec env ts cfg (es ++ set :: mid)).controller.HasEndpoint topicName
          · exact iff_of_true (hcleared hc) (.inr (.inl ⟨by rw [hc.1], hc.2⟩))
          · have hnot : ¬ (some action = some FilterAction.clearAll ∧
                (exec env ts cfg (es ++ set :: mid)).controller.HasEndpoint topicName) := by
              simpa using hc
            rw [hkept hc, or_iff_right hnot]
            exact ih hmid hold

theorem mem_of_removes {s : Spy τ} {e : Event τ π} {topicName : String}
    (h : s.filterAction e = some (.removeTopic topicName)) :
    topicName ∈ s.controller.topicFilterDict := by
  obtain ⟨arguments, -, -, ha⟩ := filterAction_eq_some_iff.mp h
  exact Controller.mem_of_removeTopic ha

/-- A set filter is undone by its removal if and only if it was empty, or was cleared in
between while the topic had an endpoint. -/
theorem setUndone_iff_clearedBetween {topicName filter : String} {es mid : List (Event τ π)}
    {set remove : Event τ π}
    (h : SetThenRemove env ts cfg topicName filter es set mid remove) :
    SetUndone topicName (exec env ts cfg (es ++ set :: mid))
        (step env ts (exec env ts cfg (es ++ set :: mid)) remove) ↔
      filter = "" ∨ ClearedBetween env ts cfg topicName es set mid := by
  have hspec := Controller.perform_spec env (exec env ts cfg (es ++ set :: mid)).controller
    (.removeTopic topicName)
  have hcontroller := controller_step_of_action env ts h.remove_accepted
  have hkept : ∀ name, (step env ts (exec env ts cfg (es ++ set :: mid)) remove).effectiveFilter
      name = (exec env ts cfg (es ++ set :: mid)).effectiveFilter name := by
    intro name
    rw [effectiveFilter, hcontroller]
    exact hspec.effective_kept rfl (by simp) name
  have hparts : (step env ts (exec env ts cfg (es ++ set :: mid))
      remove).controller.backend.partitions =
        (exec env ts cfg (es ++ set :: mid)).controller.backend.partitions := by
    rw [hcontroller]
    exact hspec.partitions_eq.trans (partitions_exec env ts cfg _).symm
  rw [← effectiveFilter_since_set h.set_accepted h.mid_other (mem_of_removes h.remove_accepted),
    SetUndone, hkept, hparts]
  simp [hkept]

theorem setUndone_cleared :
    SetUndone "topic"
      (exec literal keyedType (withPartitions ∅)
        ([.newEndpointInfo (writerRecord ⟨1, 2⟩ "A" true)] ++
          .input .filter ["filter", "set", "topic", "topic", "id > 1"] ::
            [.input .filter ["filters", "clear"]]))
      (step literal keyedType (exec literal keyedType (withPartitions ∅)
        ([.newEndpointInfo (writerRecord ⟨1, 2⟩ "A" true)] ++
          .input .filter ["filter", "set", "topic", "topic", "id > 1"] ::
            [.input .filter ["filters", "clear"]]))
        (.input .filter ["filter", "remove", "topic", "topic"])) := by
  have hrun : SetThenRemove literal keyedType (withPartitions ∅) "topic" "id > 1"
      [.newEndpointInfo (writerRecord ⟨1, 2⟩ "A" true)]
      (.input .filter ["filter", "set", "topic", "topic", "id > 1"])
      [.input .filter ["filters", "clear"]]
      (.input .filter ["filter", "remove", "topic", "topic"]) := by
    refine ⟨rfl, eachStep_singleton.mpr fun action ha => ?_, rfl⟩
    obtain rfl := Option.some.inj (ha : some FilterAction.clearAll = some action)
    simp [FilterAction.Names]
  exact (setUndone_iff_clearedBetween hrun).mpr
    (.inr (once_singleton.mpr ⟨rfl, ⟨1, 2⟩, _, rfl, rfl⟩))

/-- A filter that is set and removed at once stays in effect. -/
theorem not_setUndone_remove :
    SetThenRemove literal keyedType (withPartitions ∅) "topic" "id > 1" []
      (.input .filter ["filter", "set", "topic", "topic", "id > 1"]) []
      (.input .filter ["filter", "remove", "topic", "topic"]) ∧
    ¬ SetUndone "topic"
      (exec literal keyedType (withPartitions ∅)
        [.input .filter ["filter", "set", "topic", "topic", "id > 1"]])
      (step literal keyedType (exec literal keyedType (withPartitions ∅)
        [.input .filter ["filter", "set", "topic", "topic", "id > 1"]])
        (.input .filter ["filter", "remove", "topic", "topic"])) := by
  refine ⟨⟨rfl, eachStep_nil, rfl⟩, fun h => ?_⟩
  exact absurd h.1 (by decide)

end FastDdsSpy.Spy
