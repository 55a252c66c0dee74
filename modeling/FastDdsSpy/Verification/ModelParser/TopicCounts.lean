import FastDdsSpy.Library.Counting
import FastDdsSpy.Verification.Instances
import FastDdsSpy.Verification.ModelParser.Topics

/-! # The numbers of writers and readers of a topic

The topics are collected by name and type name, the endpoints of each are counted by name
alone. The counts are right when no other type shares the name of a topic. -/

namespace FastDdsSpy.ModelParser

open Std Counting

variable {τ κ : Type*} {env : External} {m : SpyModel τ κ}

/-- The number of active endpoints of a kind whose topic has this name and type name. -/
def numberOn (m : SpyModel τ κ) (kind : EndpointKind) (topic : DdsTopic) : ℕ :=
  (activeOfKind m kind).countP (fun endpoint => DdsTopic.cmp endpoint.2.info.topic topic == .eq)

/-- The number of active endpoints of a kind whose topic has this name. -/
def numberNamed (m : SpyModel τ κ) (kind : EndpointKind) (topicName : String) : ℕ :=
  (activeOfKind m kind).countP (fun endpoint => endpoint.2.info.topic.topicName == topicName)

theorem countP_activeOnTopic (kind : EndpointKind) (topicName : String) :
    (activeOnTopic m topicName).countP (fun endpoint => endpoint.2.info.kind == kind) =
      numberNamed m kind topicName := by
  rw [numberNamed, activeOnTopic, activeOfKind, List.countP_filter, List.countP_filter]
  refine List.countP_congr fun endpoint _ => ?_
  simp only [Bool.and_eq_true]
  tauto

theorem datawriters_simpleTopicData (topic : DdsTopic) :
    (simpleTopicData env m topic).datawriters = numberNamed m .writer topic.topicName :=
  countP_activeOnTopic .writer topic.topicName

theorem datareaders_simpleTopicData (topic : DdsTopic) :
    (simpleTopicData env m topic).datareaders = numberNamed m .reader topic.topicName :=
  countP_activeOnTopic .reader topic.topicName

/-- The topic listing counts every active writer and reader once: in total, and in the
entry of its topic. -/
structure CountsOnce (env : External) (m : SpyModel τ κ) (filterTopic : WildcardDdsFilterTopic) :
    Prop where
  datawriters_sum : ((topics env m filterTopic).map SimpleTopicData.datawriters).sum =
    (activeOfKind m .writer).length
  datareaders_sum : ((topics env m filterTopic).map SimpleTopicData.datareaders).sum =
    (activeOfKind m .reader).length
  entries : List.Forall₂ (fun topic data => data.datawriters = numberOn m .writer topic ∧
      data.datareaders = numberOn m .reader topic)
    (getTopics env m filterTopic).toList (topics env m filterTopic)

/-- No active endpoint of the kind is on a topic whose name an active endpoint, of any kind,
has with another type name. -/
def NameUnshared (m : SpyModel τ κ) (kind : EndpointKind) : Prop :=
  ∀ endpoint ∈ activeOfKind m kind, ∀ other ∈ m.endpointDatabase.toList,
    other.2.info.active = true →
    endpoint.2.info.topic.topicName = other.2.info.topic.topicName →
    endpoint.2.info.topic.typeName = other.2.info.topic.typeName

section AllTopics

variable {filterTopic : WildcardDdsFilterTopic}
  (hall : ∀ topic, env.topicMatches filterTopic topic = true)
include hall

/-- The active endpoints of a kind are split among the listed topics. -/
theorem sum_numberOn (kind : EndpointKind) :
    ((getTopics env m filterTopic).toList.map (numberOn m kind)).sum =
      (activeOfKind m kind).length := by
  apply sum_countP_classes
  · refine ExtTreeSet.distinct_toList.imp fun hne endpoint hb hc => hne ?_
    exact TransCmp.eq_trans (OrientedCmp.eq_symm (beq_iff_eq.mp hb)) (beq_iff_eq.mp hc)
  · intro endpoint hendpoint
    obtain ⟨hentry, hactive, -⟩ := mem_activeOfKind.mp hendpoint
    obtain ⟨topic, htopic, hcmp⟩ := exists_listed_topic
      (ExtTreeMap.mem_toList_iff_getElem?_eq_some.mpr hentry) hactive (hall _)
    exact ⟨topic, htopic, beq_iff_eq.mpr hcmp⟩

/-- The types that a topic name stands for, seen from the listed topics or from the entries. -/
theorem nameUnshared_iff_listed (kind : EndpointKind) : NameUnshared m kind ↔
    ∀ topic ∈ (getTopics env m filterTopic).toList, ∀ endpoint ∈ activeOfKind m kind,
      endpoint.2.info.topic.topicName = topic.topicName →
      endpoint.2.info.topic.typeName = topic.typeName := by
  constructor
  · intro h topic htopic endpoint hendpoint hname
    obtain ⟨other, hother, ⟨hactive, -⟩, hcmp⟩ := exists_endpoint_of_listed htopic
    obtain ⟨hname', htype'⟩ := DdsTopic.cmp_eq_iff.mp hcmp
    exact (h endpoint hendpoint other hother hactive (hname.trans hname'.symm)).trans htype'
  · intro h endpoint hendpoint other hother hactive hname
    obtain ⟨topic, htopic, hcmp⟩ := exists_listed_topic hother hactive (hall _)
    obtain ⟨hname', htype'⟩ := DdsTopic.cmp_eq_iff.mp hcmp
    exact (h topic htopic endpoint hendpoint (hname.trans hname')).trans htype'.symm

/-- Counting by name counts the endpoints of each listed topic exactly when no name is shared. -/
theorem numberNamed_eq_numberOn_iff (kind : EndpointKind) :
    (∀ topic ∈ (getTopics env m filterTopic).toList,
      numberNamed m kind topic.topicName = numberOn m kind topic) ↔ NameUnshared m kind := by
  rw [nameUnshared_iff_listed hall]
  refine forall₂_congr fun topic _ => ?_
  rw [eq_comm, numberNamed, numberOn, countP_eq_countP_iff]
  · simp only [beq_iff_eq, DdsTopic.cmp_eq_iff]
    exact forall₂_congr fun endpoint _ => imp_congr_right fun hname => and_iff_right hname
  · intro endpoint _ h
    exact beq_iff_eq.mpr (DdsTopic.cmp_eq_iff.mp (beq_iff_eq.mp h)).1

theorem sum_numberNamed {kind : EndpointKind} (h : NameUnshared m kind) :
    ((getTopics env m filterTopic).toList.map
      (fun topic => numberNamed m kind topic.topicName)).sum = (activeOfKind m kind).length := by
  rw [← sum_numberOn hall, List.map_congr_left ((numberNamed_eq_numberOn_iff hall kind).mpr h)]

/-- With a filter that matches every topic, the listing counts every active endpoint once if
and only if no name of a topic with a writer or a reader is shared by another type. -/
theorem countsOnce_iff_nameUnshared :
    CountsOnce env m filterTopic ↔ NameUnshared m .writer ∧ NameUnshared m .reader := by
  constructor
  · intro h
    have hentries := h.entries
    rw [topics, List.forall₂_map_right_iff, List.forall₂_same] at hentries
    exact ⟨(numberNamed_eq_numberOn_iff hall .writer).mp fun topic htopic =>
        (datawriters_simpleTopicData topic).symm.trans (hentries topic htopic).1,
      (numberNamed_eq_numberOn_iff hall .reader).mp fun topic htopic =>
        (datareaders_simpleTopicData topic).symm.trans (hentries topic htopic).2⟩
  · intro h
    obtain ⟨hwriter, hreader⟩ := h
    have hwriters := (numberNamed_eq_numberOn_iff hall .writer).mpr hwriter
    have hreaders := (numberNamed_eq_numberOn_iff hall .reader).mpr hreader
    refine ⟨?_, ?_, ?_⟩
    · rw [topics, List.map_map, ← sum_numberNamed hall hwriter]
      exact congrArg List.sum (List.map_congr_left fun topic _ => datawriters_simpleTopicData topic)
    · rw [topics, List.map_map, ← sum_numberNamed hall hreader]
      exact congrArg List.sum (List.map_congr_left fun topic _ => datareaders_simpleTopicData topic)
    · rw [topics, List.forall₂_map_right_iff, List.forall₂_same]
      exact fun topic htopic => ⟨(datawriters_simpleTopicData topic).trans (hwriters topic htopic),
        (datareaders_simpleTopicData topic).trans (hreaders topic htopic)⟩

end AllTopics

/-- Two writers and a reader on topics with different names. -/
theorem countsOnce_sampleNetwork : CountsOnce literal sampleNetwork {} := by
  refine (countsOnce_iff_nameUnshared fun _ => rfl).mpr ⟨?_, ?_⟩
  · unfold NameUnshared
    decide
  · unfold NameUnshared
    decide

/-- Two writers on topics with one name and two types are counted four times. -/
theorem not_countsOnce_otherType :
    ¬ CountsOnce literal (((SpyModel.empty false : SpyModel Unit Unit).newEndpointInfo
      (writerOn ⟨1, 2⟩ keyedTopic)).newEndpointInfo (writerOn ⟨2, 2⟩ otherTopic)) {} := by
  intro h
  exact absurd h.datawriters_sum (by decide)

end FastDdsSpy.ModelParser
