import FastDdsSpy.Verification.Controller.Endpoints

/-! # `filter_command_`

An argument vector is refused, lists the filters or performs one of seven actions. All
that an action does is in its specification; no later proof unfolds the command. -/

namespace FastDdsSpy

open Std

variable {τ : Type*}

/-- What an accepted filter command does. -/
inductive FilterAction
  | clearAll
  | clearPartitions
  | clearTopics
  | addPartition (filter : String)
  | removePartition (filter : String)
  | removeTopic (topicName : String)
  | setTopic (topicName filter : String)
  deriving DecidableEq, Repr

namespace FilterAction

/-- The partition filters after the action. -/
def partitions (action : FilterAction) (filters : ExtTreeSet String) : ExtTreeSet String :=
  match action with
  | clearAll | clearPartitions => ∅
  | addPartition filter => filters.insert filter
  | removePartition filter => filters.erase filter
  | clearTopics | removeTopic _ | setTopic _ _ => filters

/-- The topic filters after the action. -/
def topics (action : FilterAction) (filters : ExtTreeMap String String) :
    ExtTreeMap String String :=
  match action with
  | clearAll => filters.map (fun _ _ => "")
  | clearTopics => ∅
  | removeTopic topicName => filters.insert topicName ""
  | setTopic topicName filter => filters.insert topicName filter
  | clearPartitions | addPartition _ | removePartition _ => filters

/-- The action goes through `update_partitions`. -/
def refreshes : FilterAction → Bool
  | clearTopics | setTopic _ _ => false
  | _ => true

/-- The action goes through `update_topics`. -/
def clearsTopics : FilterAction → Bool
  | clearAll | clearTopics => true
  | _ => false

/-- Only an action that refreshes the flags changes the partition filters. -/
theorem partitions_of_not_refreshes {action : FilterAction} (h : ¬ action.refreshes = true)
    (filters : ExtTreeSet String) : action.partitions filters = filters := by
  cases action with
  | clearTopics | setTopic => rfl
  | _ => exact absurd rfl h

/-- The action sets or removes the filter of this topic. -/
def Names (action : FilterAction) (topicName : String) : Prop :=
  action = removeTopic topicName ∨ ∃ filter, action = setTopic topicName filter

end FilterAction

namespace Controller

/-- The action of an argument vector, if the command accepts it. -/
def filterAction (c : Controller τ) : List String → Option FilterAction
  | [command, operation] =>
      if command ≠ "filter" ∧ operation = "clear" then some .clearAll else none
  | [command, operation, category] =>
      if command = "filters" ∨ operation ≠ "clear" then none
      else if category = "partitions" then some .clearPartitions
      else if category = "topic" then some .clearTopics
      else none
  | [command, operation, category, value] =>
      if command = "filters" then none
      else if operation = "add" ∧ category = "partitions" ∧ value ∉ c.partitionFilterSet then
        some (.addPartition value)
      else if operation = "remove" ∧ category = "partitions" ∧ value ∈ c.partitionFilterSet then
        some (.removePartition value)
      else if operation = "remove" ∧ category = "topic" ∧ value ∈ c.topicFilterDict then
        some (.removeTopic value)
      else none
  | [command, operation, category, topicName, filter] =>
      if command ≠ "filters" ∧ c.configuration.ddsEnabled = true ∧ operation = "set" ∧
          category = "topic" then
        some (.setTopic topicName filter)
      else none
  | _ => none

/-- Only a topic that is in the dictionary is removed. -/
theorem mem_of_removeTopic {c : Controller τ} {arguments : List String} {topicName : String}
    (h : c.filterAction arguments = some (.removeTopic topicName)) :
    topicName ∈ c.topicFilterDict := by
  match arguments with
  | [] | [_] | _ :: _ :: _ :: _ :: _ :: _ :: _ => simp [filterAction] at h
  | [command, operation] => simp [filterAction] at h
  | [command, operation, category] =>
      simp only [filterAction] at h
      split_ifs at h <;> simp at h
  | [command, operation, category, value] =>
      simp only [filterAction] at h
      split_ifs at h with _ _ _ hremove
      · simp at h
      · simp at h
      · obtain rfl : value = topicName := by simpa using h
        exact hremove.2.2
  | [command, operation, category, name, filter] => simp [filterAction] at h

/-- The controller with the two filter stores replaced. -/
def setFilters (c : Controller τ) (action : FilterAction) : Controller τ :=
  { c with
    partitionFilterSet := action.partitions c.partitionFilterSet
    topicFilterDict := action.topics c.topicFilterDict }

/-- The update helpers that follow the change of the stores. -/
def perform (env : External) (c : Controller τ) (action : FilterAction) : Controller τ :=
  let c := c.setFilters action
  match action with
  | .clearAll => (updatePartitions env c).updateTopics
  | .clearTopics => c.updateTopics
  | .setTopic topicName _ => c.updateContentTopicfilter topicName
  | .clearPartitions | .addPartition _ | .removePartition _ | .removeTopic _ =>
      updatePartitions env c

/-- A value is in the partition filters, or among the topics with a filter. -/
theorem checkFilterContainsValue_partitions (c : Controller τ) (value : String) :
    c.checkFilterContainsValue "partitions" value = decide (value ∈ c.partitionFilterSet) := by
  rw [Bool.eq_iff_iff]
  simp [checkFilterContainsValue]

theorem checkFilterContainsValue_topic (c : Controller τ) (value : String) :
    c.checkFilterContainsValue "topic" value = decide (value ∈ c.topicFilterDict) := by
  rw [Bool.eq_iff_iff]
  simp [checkFilterContainsValue]

theorem filterCommand_four (env : External) (c : Controller τ) {command : String}
    (hc : command ≠ "filters") (operation category value : String) :
    (filterCommand env c [command, operation, category, value]).1 =
      match c.filterAction [command, operation, category, value] with
      | some action => perform env c action
      | none => c := by
  by_cases hp : category = "partitions"
  · have hcontains := checkFilterContainsValue_partitions c value
    by_cases ha : operation = "add"
    · by_cases hv : value ∈ c.partitionFilterSet <;>
        simp [filterCommand, filterAction, hc, hp, ha, hv, hcontains, perform, setFilters,
          FilterAction.partitions, FilterAction.topics]
    · by_cases hr : operation = "remove"
      · by_cases hv : value ∈ c.partitionFilterSet <;>
          simp [filterCommand, filterAction, hc, hp, hr, hv, hcontains, perform, setFilters,
            FilterAction.partitions, FilterAction.topics]
      · simp [filterCommand, filterAction, hc, hp, ha, hr]
  · by_cases ht : category = "topic"
    · have hcontains := checkFilterContainsValue_topic c value
      by_cases hr : operation = "remove"
      · by_cases hv : value ∈ c.topicFilterDict <;>
          simp [filterCommand, filterAction, hc, ht, hr, hv, hcontains, perform, setFilters,
            FilterAction.partitions, FilterAction.topics]
      · by_cases ha : operation = "add" <;> simp [filterCommand, filterAction, hc, ht, hr, ha]
    · simp [filterCommand, filterAction, hc, hp, ht]

/-- The command performs the action of its arguments, and nothing when it has none. -/
theorem filterCommand_fst (env : External) (c : Controller τ) (arguments : List String) :
    (filterCommand env c arguments).1 =
      match c.filterAction arguments with
      | some action => perform env c action
      | none => c := by
  match arguments with
  | [] => rfl
  | [command] =>
      by_cases h : command = "filter" <;> simp [filterCommand, filterAction, h]
  | [command, operation] =>
      by_cases hc : command = "filter"
      · simp [filterCommand, filterAction, hc]
      · by_cases ho : operation = "clear"
        · simp [filterCommand, filterAction, hc, ho, perform, setFilters,
            FilterAction.partitions, FilterAction.topics]
        · simp [filterCommand, filterAction, hc, ho]
  | [command, operation, category] =>
      by_cases hc : command = "filters"
      · simp [filterCommand, filterAction, hc]
      · by_cases ho : operation = "clear"
        · by_cases hp : category = "partitions"
          · simp [filterCommand, filterAction, hc, ho, hp, perform, setFilters,
              FilterAction.partitions, FilterAction.topics]
          · by_cases ht : category = "topic" <;> simp [filterCommand, filterAction, hc, ho, hp, ht,
              perform, setFilters, FilterAction.partitions, FilterAction.topics]
        · simp [filterCommand, filterAction, hc, ho]
  | [command, operation, category, value] =>
      by_cases hc : command = "filters"
      · simp [filterCommand, filterAction, hc]
      · exact filterCommand_four env c hc operation category value
  | [command, operation, category, topicName, filter] =>
      by_cases h : command ≠ "filters" ∧ c.configuration.ddsEnabled = true ∧ operation = "set" ∧
          category = "topic"
      · obtain ⟨hc, hd, ho, ht⟩ := h
        simp [filterCommand, filterAction, hc, hd, ho, ht, perform, setFilters,
          FilterAction.partitions, FilterAction.topics]
      · simp only [filterAction, if_neg h]
        by_cases hc : command = "filters"
        · simp [filterCommand, hc]
        · by_cases hd : c.configuration.ddsEnabled = true
          · have hformat : operation ≠ "set" ∨ category ≠ "topic" := by tauto
            simp [filterCommand, hc, hd, hformat]
          · simp [filterCommand, hc, hd]
  | _ :: _ :: _ :: _ :: _ :: _ :: _ => rfl

/-- A command that performs an action shows nothing. -/
theorem filterCommand_snd_of_action (env : External) {c : Controller τ} {arguments : List String}
    {action : FilterAction} (h : c.filterAction arguments = some action) :
    (filterCommand env c arguments).2 = [] := by
  match arguments with
  | [] | [_] | _ :: _ :: _ :: _ :: _ :: _ :: _ => simp [filterAction] at h
  | [command, operation] =>
      simp only [filterAction] at h
      split_ifs at h with hc
      obtain ⟨hcommand, hoperation⟩ := hc
      simp [filterCommand, hcommand, hoperation]
  | [command, operation, category] =>
      simp only [filterAction] at h
      split_ifs at h with hc hp ht
      · obtain ⟨hcommand, hoperation⟩ := not_or.mp hc
        simp [filterCommand, hcommand, not_not.mp hoperation, hp]
      · obtain ⟨hcommand, hoperation⟩ := not_or.mp hc
        simp [filterCommand, hcommand, not_not.mp hoperation, ht]
  | [command, operation, category, value] =>
      simp only [filterAction] at h
      split_ifs at h with hc ha hr ht
      · obtain ⟨hoperation, hcategory, hvalue⟩ := ha
        have hcontains := checkFilterContainsValue_partitions c value
        simp [filterCommand, hc, hoperation, hcategory, hcontains, hvalue]
      · obtain ⟨hoperation, hcategory, hvalue⟩ := hr
        have hcontains := checkFilterContainsValue_partitions c value
        simp [filterCommand, hc, hoperation, hcategory, hcontains, hvalue]
      · obtain ⟨hoperation, hcategory, hvalue⟩ := ht
        have hcontains := checkFilterContainsValue_topic c value
        simp [filterCommand, hc, hoperation, hcategory, hcontains, hvalue]
  | [command, operation, category, topicName, filter] =>
      simp only [filterAction] at h
      split_ifs at h with hc
      obtain ⟨hcommand, hdds, hoperation, hcategory⟩ := hc
      simp [filterCommand, hcommand, hdds, hoperation, hcategory]

/-! ## What an action changes -/

/-- Some endpoint of the database, alive or not, is on a topic of this name. -/
def HasEndpoint (c : Controller τ) (topicName : String) : Prop :=
  ∃ (guid : Guid) (entry : EndpointInfoData), c.model.endpointDatabase[guid]? = some entry ∧
    entry.info.topic.topicName = topicName

theorem effectiveFilter_updateContentTopicfilter (c : Controller τ) (name topicName : String) :
    (c.updateContentTopicfilter name).backend.effectiveFilter topicName =
      if name = topicName then c.topicFilterDict[topicName]?.getD ""
      else c.backend.effectiveFilter topicName := by
  by_cases h : name = topicName
  · subst h
    simp [updateContentTopicfilter, Backend.updateReadersTrackContentFilter,
      Backend.effectiveFilter]
  · simp [updateContentTopicfilter, Backend.updateReadersTrackContentFilter,
      Backend.effectiveFilter, ExtTreeMap.getElem?_insert, h]

/-- What `update_topics` keeps: everything but the content filters of the backend. -/
structure SameButTopics (c c' : Controller τ) : Prop where
  model_eq : c'.model = c.model
  configuration_eq : c'.configuration = c.configuration
  partitionFilterSet_eq : c'.partitionFilterSet = c.partitionFilterSet
  topicFilterDict_eq : c'.topicFilterDict = c.topicFilterDict
  partitions_eq : c'.backend.partitions = c.backend.partitions

theorem SameButTopics.refl (c : Controller τ) : SameButTopics c c := ⟨rfl, rfl, rfl, rfl, rfl⟩

theorem SameButTopics.trans {c c' c'' : Controller τ} (h : SameButTopics c c')
    (h' : SameButTopics c' c'') : SameButTopics c c'' where
  model_eq := h'.model_eq.trans h.model_eq
  configuration_eq := h'.configuration_eq.trans h.configuration_eq
  partitionFilterSet_eq := h'.partitionFilterSet_eq.trans h.partitionFilterSet_eq
  topicFilterDict_eq := h'.topicFilterDict_eq.trans h.topicFilterDict_eq
  partitions_eq := h'.partitions_eq.trans h.partitions_eq

theorem sameButTopics_updateContentTopicfilter (c : Controller τ) (name : String) :
    SameButTopics c (c.updateContentTopicfilter name) := ⟨rfl, rfl, rfl, rfl, rfl⟩

/-- The loop of `update_topics` hands over the filter of every topic name it meets. -/
theorem foldl_updateContentTopicfilter (entries : List (Guid × EndpointInfoData))
    (c : Controller τ) :
    SameButTopics c (entries.foldl
      (fun c entry => c.updateContentTopicfilter entry.2.info.topic.topicName) c) ∧
    ∀ topicName, (entries.foldl
        (fun c entry => c.updateContentTopicfilter entry.2.info.topic.topicName)
        c).backend.effectiveFilter topicName =
      if ∃ entry ∈ entries, entry.2.info.topic.topicName = topicName then
        c.topicFilterDict[topicName]?.getD ""
      else c.backend.effectiveFilter topicName := by
  induction entries generalizing c with
  | nil => exact ⟨.refl c, by simp⟩
  | cons entry entries ih =>
      obtain ⟨hsame, heff⟩ := ih (c.updateContentTopicfilter entry.2.info.topic.topicName)
      have hfirst := sameButTopics_updateContentTopicfilter c entry.2.info.topic.topicName
      refine ⟨hfirst.trans hsame, fun topicName => ?_⟩
      rw [List.foldl_cons, heff, hfirst.topicFilterDict_eq,
        effectiveFilter_updateContentTopicfilter]
      by_cases hlater : ∃ entry ∈ entries, entry.2.info.topic.topicName = topicName
      · rw [if_pos hlater, if_pos]
        obtain ⟨entry', hmem, hname⟩ := hlater
        exact ⟨entry', List.mem_cons_of_mem _ hmem, hname⟩
      · rw [if_neg hlater]
        by_cases hname : entry.2.info.topic.topicName = topicName
        · rw [if_pos hname, if_pos ⟨entry, List.mem_cons_self, hname⟩]
        · rw [if_neg hname, if_neg]
          intro hany
          obtain ⟨entry', hmem, hname'⟩ := hany
          rcases List.mem_cons.mp hmem with rfl | hmem
          · exact hname hname'
          · exact hlater ⟨entry', hmem, hname'⟩

theorem sameButTopics_updateTopics (c : Controller τ) : SameButTopics c c.updateTopics :=
  (foldl_updateContentTopicfilter _ c).1

/-- `update_topics` reaches exactly the topics that have an endpoint in the database. -/
theorem effectiveFilter_updateTopics (c : Controller τ) (topicName : String) :
    (c.HasEndpoint topicName → c.updateTopics.backend.effectiveFilter topicName =
      c.topicFilterDict[topicName]?.getD "") ∧
    (¬ c.HasEndpoint topicName → c.updateTopics.backend.effectiveFilter topicName =
      c.backend.effectiveFilter topicName) := by
  have hcover : (∃ entry ∈ c.model.endpointDatabase.toList,
      entry.2.info.topic.topicName = topicName) ↔ c.HasEndpoint topicName := by
    simp [HasEndpoint, ExtTreeMap.mem_toList_iff_getElem?_eq_some]
  have heff := (foldl_updateContentTopicfilter c.model.endpointDatabase.toList c).2 topicName
  refine ⟨fun h => ?_, fun h => ?_⟩
  · rw [if_pos (hcover.mpr h)] at heff
    exact heff
  · rw [if_neg (fun h' => h (hcover.mp h'))] at heff
    exact heff

/-- With a dictionary of empty filters, `update_topics` empties what it reaches. -/
theorem effectiveFilter_updateTopics_of_cleared {c : Controller τ}
    (hdict : ∀ name : String, c.topicFilterDict[name]?.getD "" = "") (name : String) :
    (c.HasEndpoint name → c.updateTopics.backend.effectiveFilter name = "") ∧
    (¬ c.HasEndpoint name → c.updateTopics.backend.effectiveFilter name =
      c.backend.effectiveFilter name) := by
  obtain ⟨hin, hout⟩ := effectiveFilter_updateTopics c name
  exact ⟨fun h => (hin h).trans (hdict name), hout⟩

/-- All that an accepted filter command does. -/
structure PerformSpec (env : External) (c : Controller τ) (action : FilterAction)
    (c' : Controller τ) : Prop where
  partitionFilterSet_eq : c'.partitionFilterSet = action.partitions c.partitionFilterSet
  topicFilterDict_eq : c'.topicFilterDict = action.topics c.topicFilterDict
  configuration_eq : c'.configuration = c.configuration
  streamer_eq : c'.model.toDataStreamer = c.model.toDataStreamer
  participantDatabase_eq : c'.model.participantDatabase = c.model.participantDatabase
  endpoint_eq : ∀ guid : Guid, c'.model.endpointDatabase[guid]? =
    if action.refreshes then c.model.endpointDatabase[guid]?.map
      (fun entry : EndpointInfoData => entry.setActive
        (endpointActive env (action.partitions c.partitionFilterSet) entry.info))
    else c.model.endpointDatabase[guid]?
  partitions_eq : c'.backend.partitions =
    if action.refreshes then action.partitions c.partitionFilterSet else c.backend.partitions
  effective_set : ∀ topicName filter, action = .setTopic topicName filter →
    ∀ name, c'.backend.effectiveFilter name =
      if topicName = name then filter else c.backend.effectiveFilter name
  effective_cleared : action.clearsTopics = true → ∀ name,
    (c.HasEndpoint name → c'.backend.effectiveFilter name = "") ∧
    (¬ c.HasEndpoint name → c'.backend.effectiveFilter name = c.backend.effectiveFilter name)
  effective_kept : action.clearsTopics = false → (∀ topicName filter,
      action ≠ .setTopic topicName filter) →
    ∀ name, c'.backend.effectiveFilter name = c.backend.effectiveFilter name

theorem hasEndpoint_updatePartitions (env : External) (c : Controller τ) (topicName : String) :
    (updatePartitions env c).HasEndpoint topicName ↔ c.HasEndpoint topicName := by
  simp only [HasEndpoint, updatePartitions, getElem?_updateEndpoints, Option.map_eq_some_iff]
  constructor
  · intro hnew
    obtain ⟨guid, _, ⟨entry, hentry, rfl⟩, hname⟩ := hnew
    exact ⟨guid, entry, hentry, hname⟩
  · intro hold
    obtain ⟨guid, entry, hentry, hname⟩ := hold
    exact ⟨guid, _, ⟨entry, hentry, rfl⟩, hname⟩

theorem perform_spec (env : External) (c : Controller τ) (action : FilterAction) :
    PerformSpec env c action (perform env c action) := by
  cases action with
  | clearAll =>
      have hsame := sameButTopics_updateTopics (updatePartitions env (c.setFilters .clearAll))
      refine ⟨hsame.partitionFilterSet_eq, hsame.topicFilterDict_eq, hsame.configuration_eq,
        ?_, ?_, ?_, hsame.partitions_eq, by simp, ?_, by simp [FilterAction.clearsTopics]⟩
      · exact congrArg (fun m => m.toDataStreamer) hsame.model_eq
      · exact congrArg (fun m => m.participantDatabase) hsame.model_eq
      · intro guid
        have hmodel := congrArg (fun m => m.endpointDatabase[guid]?) hsame.model_eq
        exact hmodel.trans (getElem?_updateEndpoints env _ guid)
      · intro _ name
        have hdict : ∀ name : String, (updatePartitions env
            (c.setFilters .clearAll)).topicFilterDict[name]?.getD "" = "" := by
          intro name
          cases hd : c.topicFilterDict[name]? <;>
            simp [updatePartitions, updateEndpoints, setFilters, FilterAction.topics, hd]
        have hname := effectiveFilter_updateTopics_of_cleared hdict name
        rw [hasEndpoint_updatePartitions] at hname
        exact hname
  | clearTopics =>
      have hsame := sameButTopics_updateTopics (c.setFilters .clearTopics)
      refine ⟨hsame.partitionFilterSet_eq, hsame.topicFilterDict_eq, hsame.configuration_eq,
        ?_, ?_, ?_, hsame.partitions_eq, by simp, ?_, by simp [FilterAction.clearsTopics]⟩
      · exact congrArg (fun m => m.toDataStreamer) hsame.model_eq
      · exact congrArg (fun m => m.participantDatabase) hsame.model_eq
      · exact fun guid => congrArg (fun m => m.endpointDatabase[guid]?) hsame.model_eq
      · intro _ name
        have hdict : ∀ name : String,
            (c.setFilters .clearTopics).topicFilterDict[name]?.getD "" = "" := by
          simp [setFilters, FilterAction.topics]
        exact effectiveFilter_updateTopics_of_cleared hdict name
  | setTopic topicName filter =>
      refine ⟨rfl, rfl, rfl, rfl, rfl, fun _ => rfl, rfl, ?_, by simp [FilterAction.clearsTopics],
        by simp⟩
      intro topicName' filter' h name
      obtain ⟨rfl, rfl⟩ := FilterAction.setTopic.inj h
      have heff := effectiveFilter_updateContentTopicfilter
        (c.setFilters (.setTopic topicName filter)) topicName name
      refine heff.trans ?_
      by_cases hn : topicName = name
      · subst hn
        simp [setFilters, FilterAction.topics]
      · rw [if_neg hn, if_neg hn]
        rfl
  | clearPartitions | addPartition | removePartition | removeTopic =>
      exact ⟨rfl, rfl, rfl, rfl, rfl, fun guid => getElem?_updateEndpoints env _ guid, rfl,
        by simp, by simp [FilterAction.clearsTopics], fun _ _ _ => rfl⟩

/-- An action hands the new partition filters over to the backend. -/
theorem partitions_perform (env : External) {c : Controller τ}
    (h : c.backend.partitions = c.partitionFilterSet) (action : FilterAction) :
    (perform env c action).backend.partitions = (perform env c action).partitionFilterSet := by
  have hspec := perform_spec env c action
  rw [hspec.partitions_eq, hspec.partitionFilterSet_eq]
  by_cases hr : action.refreshes = true
  · rw [if_pos hr]
  · rw [if_neg hr, h, FilterAction.partitions_of_not_refreshes hr]

end Controller

end FastDdsSpy
