import FastDdsSpy.Verification.Instances
import FastDdsSpy.Verification.ModelParser.Topics

/-! # The topic views and the endpoint views

The two topic views go through the same set of topics and select endpoints by the same test;
the endpoints in them are those that the endpoint views show. -/

namespace FastDdsSpy.ModelParser

open Std

variable {τ κ : Type*} (env : External) (m : SpyModel τ κ)

/-- The list of a verbose topic entry for one kind of endpoint. -/
def endpointsOfTopic (kind : EndpointKind) (topicName : String) : List TopicEndpoint :=
  ((activeOnTopic m topicName).filter (fun endpoint => endpoint.2.info.kind == kind)).map
    (fun endpoint => ⟨endpoint.1, partitionOf env endpoint.1 endpoint.2.info⟩)

theorem datawriters_complexTopicData (topic : DdsTopic) :
    (complexTopicData env m topic).datawriters = endpointsOfTopic env m .writer topic.topicName :=
  rfl

theorem datareaders_complexTopicData (topic : DdsTopic) :
    (complexTopicData env m topic).datareaders = endpointsOfTopic env m .reader topic.topicName :=
  rfl

/-- An active endpoint of a kind, on a topic of this name, with its entry. -/
structure IsEndpointOf (kind : EndpointKind) (topicName : String) (guid : Guid)
    (entry : EndpointInfoData) : Prop where
  entry_eq : m.endpointDatabase[guid]? = some entry
  active : entry.info.active = true
  kind_eq : entry.info.kind = kind
  topicName_eq : entry.info.topic.topicName = topicName

variable {env m}

theorem mem_endpointsOfTopic {kind : EndpointKind} {topicName : String}
    {endpoint : TopicEndpoint} : endpoint ∈ endpointsOfTopic env m kind topicName ↔
      ∃ entry, IsEndpointOf m kind topicName endpoint.guid entry ∧
        endpoint.partition = partitionOf env endpoint.guid entry.info := by
  constructor
  · intro hmem
    obtain ⟨it, hit, rfl⟩ := List.mem_map.mp hmem
    obtain ⟨hon, hkind⟩ := List.mem_filter.mp hit
    obtain ⟨hentry, hactive, hname⟩ := mem_activeOnTopic.mp hon
    exact ⟨it.2, ⟨hentry, hactive, beq_iff_eq.mp hkind, hname⟩, rfl⟩
  · intro h
    obtain ⟨entry, hentry, hpartition⟩ := h
    refine List.mem_map.mpr ⟨(endpoint.guid, entry), List.mem_filter.mpr ⟨?_, ?_⟩, ?_⟩
    · exact mem_activeOnTopic.mpr ⟨hentry.entry_eq, hentry.active, hentry.topicName_eq⟩
    · exact beq_iff_eq.mpr hentry.kind_eq
    · rw [← hpartition]

/-- The simple and the verbose entry of one topic. -/
structure SameTopic (simple : SimpleTopicData) (complex : ComplexTopicData) : Prop where
  name_eq : simple.name = complex.name
  type_eq : simple.type = complex.type
  rate_eq : simple.rate = complex.rate
  datawriters_eq : simple.datawriters = complex.datawriters.length
  datareaders_eq : simple.datareaders = complex.datareaders.length

theorem sameTopic (topic : DdsTopic) :
    SameTopic (simpleTopicData env m topic) (complexTopicData env m topic) where
  name_eq := rfl
  type_eq := rfl
  rate_eq := rfl
  datawriters_eq := by simp [simpleTopicData, complexTopicData, List.countP_eq_length_filter]
  datareaders_eq := by simp [simpleTopicData, complexTopicData, List.countP_eq_length_filter]

/-- The endpoints in the lists of the verbose topic view against an endpoint view: `simple`
is the listing and `byGuid` the query for one endpoint. -/
structure EndpointsAgree (env : External) (m : SpyModel τ κ)
    (filterTopic : WildcardDdsFilterTopic) (list : ComplexTopicData → List TopicEndpoint)
    (simple : List SimpleEndpointData) (byGuid : Guid → ComplexEndpointData) : Prop where
  filled : ∀ data ∈ topicsVerbose env m filterTopic, ∀ endpoint ∈ list data,
    (∃ entry : EndpointInfoData, m.endpointDatabase[endpoint.guid]? = some entry ∧
      byGuid endpoint.guid = fillComplexEndpoint env m entry.info) ∧
    (byGuid endpoint.guid).guid = endpoint.guid ∧
    (byGuid endpoint.guid).partition = endpoint.partition ∧
    (byGuid endpoint.guid).topicName = data.name
  listed : ∀ data ∈ simple, ∃ entry : EndpointInfoData,
    m.endpointDatabase[data.guid]? = some entry ∧
    (env.topicMatches filterTopic entry.info.topic = true →
      ∃ topicData ∈ topicsVerbose env m filterTopic, topicData.name = data.topicName ∧
        ∃ endpoint ∈ list topicData, endpoint.guid = data.guid)

theorem endpointsAgree (hkey : KeyedByGuid m) (filterTopic : WildcardDdsFilterTopic)
    (kind : EndpointKind) (list : ComplexTopicData → List TopicEndpoint)
    (hlist : ∀ topic, list (complexTopicData env m topic) =
      endpointsOfTopic env m kind topic.topicName) :
    EndpointsAgree env m filterTopic list (setEndpointSimpleInformation env m kind)
      (setEndpointComplexInformation env m kind) where
  filled := by
    intro data hdata endpoint hendpoint
    obtain ⟨topic, -, rfl⟩ := List.mem_map.mp hdata
    rw [hlist] at hendpoint
    obtain ⟨entry, hentry, hpartition⟩ := mem_endpointsOfTopic.mp hendpoint
    have hfill := complexInformation_of_entry env hentry.entry_eq hentry.active hentry.kind_eq
    have hguid : entry.info.guid = endpoint.guid := hkey endpoint.guid entry hentry.entry_eq
    rw [hfill]
    refine ⟨⟨entry, hentry.entry_eq, rfl⟩, hguid, ?_, ?_⟩
    · rw [fillComplexEndpoint, hguid, hpartition]
    · rw [fillComplexEndpoint, hentry.topicName_eq, complexTopicData]
  listed := by
    intro data hdata
    obtain ⟨it, hit, rfl⟩ := List.mem_map.mp hdata
    obtain ⟨hentry, hactive, hkind⟩ := mem_activeOfKind.mp hit
    have hguid : it.2.info.guid = it.1 := hkey it.1 it.2 hentry
    refine ⟨it.2, by rw [fillSimpleEndpoint, hguid, hentry], fun hmatch => ?_⟩
    obtain ⟨topic, htopic, hcmp⟩ := exists_listed_topic
      (ExtTreeMap.mem_toList_iff_getElem?_eq_some.mpr hentry) hactive hmatch
    obtain ⟨hname, -⟩ := DdsTopic.cmp_eq_iff.mp hcmp
    refine ⟨complexTopicData env m topic, List.mem_map_of_mem htopic, ?_,
      ⟨it.1, partitionOf env it.1 it.2.info⟩, ?_, hguid.symm⟩
    · rw [complexTopicData, fillSimpleEndpoint, hname]
    · rw [hlist]
      exact mem_endpointsOfTopic.mpr ⟨it.2, ⟨hentry, hactive, hkind, hname⟩, rfl⟩

/-- The four views of a model, for one topic filter. -/
structure TopicViewsAgree (env : External) (m : SpyModel τ κ)
    (filterTopic : WildcardDdsFilterTopic) : Prop where
  topics_same : List.Forall₂ SameTopic (topics env m filterTopic) (topicsVerbose env m filterTopic)
  writers_agree : EndpointsAgree env m filterTopic ComplexTopicData.datawriters (writers env m)
    (writersByGuid env m)
  readers_agree : EndpointsAgree env m filterTopic ComplexTopicData.datareaders (readers env m)
    (readersByGuid env m)

/-- In a model whose entries are stored under their own GUIDs, the topic views agree with each
other and with the endpoint views. -/
theorem topicViews_agree (env : External) (m : SpyModel τ κ) (hkey : KeyedByGuid m)
    (filterTopic : WildcardDdsFilterTopic) : TopicViewsAgree env m filterTopic where
  topics_same := by
    rw [topics, topicsVerbose, List.forall₂_map_left_iff, List.forall₂_map_right_iff]
    exact List.forall₂_same.mpr fun topic _ => sameTopic topic
  writers_agree := endpointsAgree hkey filterTopic .writer _ (datawriters_complexTopicData env m)
  readers_agree := endpointsAgree hkey filterTopic .reader _ (datareaders_complexTopicData env m)

theorem topicViews_agree_sampleNetwork : TopicViewsAgree literal sampleNetwork {} := by
  refine topicViews_agree literal sampleNetwork ?_ {}
  exact (((keyedByGuid_empty false).newEndpointInfo _).newEndpointInfo _).newEndpointInfo _

end FastDdsSpy.ModelParser
