import FastDdsSpy.Model.ModelParser

/-! # Endpoints that are not listed

An endpoint whose entry is not active is invisible: every listing is the one of the model
without the endpoint. -/

namespace FastDdsSpy.ModelParser

open Std

variable {τ κ : Type*} (env : External) (m : SpyModel τ κ) (guid : Guid)

/-- The model with the entry of one endpoint left out. -/
def withoutEndpoint : SpyModel τ κ :=
  { m with endpointDatabase := m.endpointDatabase.filter (fun guid' _ => guid' != guid) }

/-- The entry of the endpoint, if there is one, is not active. -/
def NotActive : Prop :=
  ∀ entry : EndpointInfoData, m.endpointDatabase[guid]? = some entry → entry.info.active = false

/-- Entries are stored under the GUID that they carry. -/
def KeyedByGuid : Prop :=
  ∀ (guid : Guid) (entry : EndpointInfoData), m.endpointDatabase[guid]? = some entry →
    entry.info.guid = guid

variable {m guid}

/-- A selection of active entries does not see the entry left out. -/
theorem toList_filter_withoutEndpoint (h : NotActive m guid)
    {select : Guid × EndpointInfoData → Bool}
    (hselect : ∀ entry, select entry = true → entry.2.info.active = true) :
    (withoutEndpoint m guid).endpointDatabase.toList.filter select =
      m.endpointDatabase.toList.filter select := by
  unfold withoutEndpoint
  rw [ExtTreeMap.toList_filter, List.filter_filter]
  refine List.filter_congr fun entry hentry => ?_
  by_cases hs : select entry = true
  · have hne : entry.1 ≠ guid := by
      rintro rfl
      have hfalse := h entry.2 (ExtTreeMap.mem_toList_iff_getElem?_eq_some.mp hentry)
      simp [hselect entry hs] at hfalse
    simp [hs, hne]
  · simp [hs]

theorem getTopics_eq (filterTopic : WildcardDdsFilterTopic) : getTopics env m filterTopic =
    (m.endpointDatabase.toList.filter (fun entry => entry.2.info.active &&
      env.topicMatches filterTopic entry.2.info.topic)).foldl
        (fun result entry => result.insert entry.2.info.topic) ∅ := by
  rw [getTopics, List.foldl_filter]
  congr 1
  funext result entry
  cases entry.2.info.active <;> cases env.topicMatches filterTopic entry.2.info.topic <;> rfl

theorem getTopics_withoutEndpoint (h : NotActive m guid) (filterTopic : WildcardDdsFilterTopic) :
    getTopics env (withoutEndpoint m guid) filterTopic = getTopics env m filterTopic := by
  rw [getTopics_eq, getTopics_eq, toList_filter_withoutEndpoint h]
  intro entry hentry
  exact (Bool.and_eq_true_iff.mp hentry).1

theorem activeOnTopic_withoutEndpoint (h : NotActive m guid) (topicName : String) :
    activeOnTopic (withoutEndpoint m guid) topicName = activeOnTopic m topicName := by
  apply toList_filter_withoutEndpoint h
  intro entry hentry
  exact (Bool.and_eq_true_iff.mp hentry).1

theorem topics_withoutEndpoint (h : NotActive m guid) (filterTopic : WildcardDdsFilterTopic) :
    topics env (withoutEndpoint m guid) filterTopic = topics env m filterTopic := by
  have hdata : simpleTopicData env (withoutEndpoint m guid) = simpleTopicData env m := by
    funext topic
    simp only [simpleTopicData, activeOnTopic_withoutEndpoint h]
    rfl
  rw [topics, topics, getTopics_withoutEndpoint env h, hdata]

theorem topicsVerbose_withoutEndpoint (h : NotActive m guid)
    (filterTopic : WildcardDdsFilterTopic) :
    topicsVerbose env (withoutEndpoint m guid) filterTopic = topicsVerbose env m filterTopic := by
  have hdata : complexTopicData env (withoutEndpoint m guid) = complexTopicData env m := by
    funext topic
    simp only [complexTopicData, activeOnTopic_withoutEndpoint h]
    rfl
  rw [topicsVerbose, topicsVerbose, getTopics_withoutEndpoint env h, hdata]

/-- The endpoint is in none of the listings: not among the writers and readers, not in the
lists of a topic, and the topics are those of the model without it. -/
structure Unlisted (env : External) (m : SpyModel τ κ) (guid : Guid) : Prop where
  writers : ∀ data ∈ ModelParser.writers env m, data.guid ≠ guid
  readers : ∀ data ∈ ModelParser.readers env m, data.guid ≠ guid
  topics : ∀ filterTopic,
    ModelParser.topics env m filterTopic =
      ModelParser.topics env (withoutEndpoint m guid) filterTopic
  topicsVerbose : ∀ filterTopic,
    ModelParser.topicsVerbose env m filterTopic =
      ModelParser.topicsVerbose env (withoutEndpoint m guid) filterTopic
  endpoints : ∀ filterTopic, ∀ data ∈ ModelParser.topicsVerbose env m filterTopic,
    ∀ endpoint ∈ data.datawriters ++ data.datareaders, endpoint.guid ≠ guid

theorem setEndpointSimpleInformation_ne (hkey : KeyedByGuid m) (h : NotActive m guid)
    (kind : EndpointKind) :
    ∀ data ∈ setEndpointSimpleInformation env m kind, data.guid ≠ guid := by
  intro data hdata hguid
  obtain ⟨entry, hentry, rfl⟩ := List.mem_map.mp hdata
  obtain ⟨hmem, hsel⟩ := List.mem_filter.mp hentry
  have hget := ExtTreeMap.mem_toList_iff_getElem?_eq_some.mp hmem
  have hfst : entry.1 = guid := (hkey entry.1 entry.2 hget).symm.trans hguid
  rw [hfst] at hget
  have hfalse := h entry.2 hget
  simp [hfalse] at hsel

theorem activeOnTopic_ne (h : NotActive m guid) (topicName : String) :
    ∀ entry ∈ activeOnTopic m topicName, entry.1 ≠ guid := by
  rintro entry hentry rfl
  obtain ⟨hmem, hsel⟩ := List.mem_filter.mp hentry
  have hfalse := h entry.2 (ExtTreeMap.mem_toList_iff_getElem?_eq_some.mp hmem)
  simp [hfalse] at hsel

theorem unlisted_of_notActive (hkey : KeyedByGuid m) (h : NotActive m guid) :
    Unlisted env m guid where
  writers := setEndpointSimpleInformation_ne env hkey h .writer
  readers := setEndpointSimpleInformation_ne env hkey h .reader
  topics filterTopic := (topics_withoutEndpoint env h filterTopic).symm
  topicsVerbose filterTopic := (topicsVerbose_withoutEndpoint env h filterTopic).symm
  endpoints := by
    intro filterTopic data hdata endpoint hendpoint
    obtain ⟨topic, -, rfl⟩ := List.mem_map.mp hdata
    rcases List.mem_append.mp hendpoint with hmem | hmem
    all_goals
      obtain ⟨entry, hentry, rfl⟩ := List.mem_map.mp hmem
      exact activeOnTopic_ne h topic.topicName entry (List.mem_filter.mp hentry).1

end FastDdsSpy.ModelParser
