import FastDdsSpy.Library.OrderedSearch
import FastDdsSpy.Verification.Instances
import FastDdsSpy.Verification.ModelParser.Topics

/-! # The IDL query

The query searches the listed topics in their order, and for each of them the database, for
a type IDL. It answers with a text of its own when the topics it searched have none, and
with the empty text when there was no topic to search. -/

namespace FastDdsSpy.ModelParser

open Std OrderedSearch

variable {τ κ : Type*} {env : External} {m : SpyModel τ κ} {filterTopic : WildcardDdsFilterTopic}

/-- The database has this active endpoint, and its topic matches the filter. -/
structure ActiveMatch (env : External) (m : SpyModel τ κ) (filterTopic : WildcardDdsFilterTopic)
    (guid : Guid) (entry : EndpointInfoData) : Prop where
  entry_eq : m.endpointDatabase[guid]? = some entry
  active : entry.info.active = true
  matching : env.topicMatches filterTopic entry.info.topic = true

theorem exists_listed_of_activeMatch {guid : Guid} {entry : EndpointInfoData}
    (h : ActiveMatch env m filterTopic guid entry) :
    ∃ topic ∈ (getTopics env m filterTopic).toList, DdsTopic.cmp entry.info.topic topic = .eq := by
  have hmem : (guid, entry) ∈ m.endpointDatabase.toList :=
    ExtTreeMap.mem_toList_iff_getElem?_eq_some.mpr h.entry_eq
  have hlisted := exists_listed_topic hmem h.active h.matching
  exact hlisted

theorem exists_activeMatch_of_listed {topic : DdsTopic}
    (h : topic ∈ (getTopics env m filterTopic).toList) :
    ∃ guid entry, ActiveMatch env m filterTopic guid entry ∧
      DdsTopic.cmp entry.info.topic topic = .eq := by
  obtain ⟨endpoint, hmem, ⟨hactive, hmatch⟩, hcmp⟩ := exists_endpoint_of_listed h
  exact ⟨endpoint.1, endpoint.2,
    ⟨ExtTreeMap.mem_toList_iff_getElem?_eq_some.mp hmem, hactive, hmatch⟩, hcmp⟩

theorem isEmpty_getTopics_iff : (getTopics env m filterTopic).isEmpty = true ↔
    ∀ guid entry, ¬ ActiveMatch env m filterTopic guid entry := by
  rw [← ExtTreeSet.isEmpty_toList, List.isEmpty_iff, List.eq_nil_iff_forall_not_mem]
  constructor
  · intro h guid entry hentry
    obtain ⟨topic, htopic, -⟩ := exists_listed_of_activeMatch hentry
    exact h topic htopic
  · intro h topic htopic
    obtain ⟨guid, entry, hentry, -⟩ := exists_activeMatch_of_listed htopic
    exact h guid entry hentry

/-! ## The two searches -/

/-- The search of `topics_type_idl` through the database, for one topic. -/
def typeIdlOf (m : SpyModel τ κ) (topic : DdsTopic) : Option String :=
  m.endpointDatabase.toList.findSome? (fun endpoint =>
    if endpoint.2.info.active && DdsTopic.cmp endpoint.2.info.topic topic == .eq
      && endpoint.2.typeIdl != "" then some endpoint.2.typeIdl else none)

theorem topicsTypeIdl_eq : topicsTypeIdl env m filterTopic =
    match (getTopics env m filterTopic).toList.findSome? (typeIdlOf m) with
    | some typeIdl => typeIdl
    | none => if !(getTopics env m filterTopic).isEmpty then noTypeInformation else "" := rfl

theorem exists_entry_of_typeIdlOf {topic : DdsTopic} {typeIdl : String}
    (h : typeIdlOf m topic = some typeIdl) :
    ∃ (guid : Guid) (entry : EndpointInfoData), m.endpointDatabase[guid]? = some entry ∧
      entry.info.active = true ∧ DdsTopic.cmp entry.info.topic topic = .eq ∧
      entry.typeIdl ≠ "" ∧ entry.typeIdl = typeIdl := by
  obtain ⟨endpoint, hmem, hendpoint⟩ := List.exists_of_findSome?_eq_some h
  rw [Option.ite_none_right_eq_some] at hendpoint
  obtain ⟨hcond, hidl⟩ := hendpoint
  simp only [Bool.and_eq_true, beq_iff_eq, bne_iff_ne] at hcond
  exact ⟨endpoint.1, endpoint.2, ExtTreeMap.mem_toList_iff_getElem?_eq_some.mp hmem,
    hcond.1.1, hcond.1.2, hcond.2, Option.some.inj hidl⟩

theorem isSome_typeIdlOf {guid : Guid} {entry : EndpointInfoData} {topic : DdsTopic}
    (hentry : m.endpointDatabase[guid]? = some entry) (hactive : entry.info.active = true)
    (hcmp : DdsTopic.cmp entry.info.topic topic = .eq) (hidl : entry.typeIdl ≠ "") :
    (typeIdlOf m topic).isSome = true := by
  rw [typeIdlOf, List.findSome?_isSome_iff]
  refine ⟨(guid, entry), ExtTreeMap.mem_toList_iff_getElem?_eq_some.mpr hentry, ?_⟩
  simp [hactive, hcmp, hidl]

/-- The IDL query has nothing to say only when no topic is listed. -/
theorem isEmpty_topicsTypeIdl (env : External) (m : SpyModel τ κ)
    (filterTopic : WildcardDdsFilterTopic) : (topicsTypeIdl env m filterTopic).isEmpty =
      (getTopics env m filterTopic).isEmpty := by
  rw [topicsTypeIdl_eq]
  cases h : (getTopics env m filterTopic).toList.findSome? (typeIdlOf m) with
  | none =>
      cases (getTopics env m filterTopic).isEmpty with
      | true => rfl
      | false => rfl
  | some typeIdl =>
      obtain ⟨topic, htopic, hfound⟩ := List.exists_of_findSome?_eq_some h
      obtain ⟨_, entry, _, _, _, hne, rfl⟩ := exists_entry_of_typeIdlOf hfound
      rw [← ExtTreeSet.isEmpty_toList, List.isEmpty_eq_false_iff.mpr (List.ne_nil_of_mem htopic)]
      simpa using hne

/-! ## The answer -/

/-- What the text tells: no active endpoint matches, those that match have no type IDL, or it
is the type IDL of one of them, on the least topic that has one. -/
structure IdlAnswer (env : External) (m : SpyModel τ κ) (filterTopic : WildcardDdsFilterTopic)
    (answer : String) : Prop where
  empty_iff : answer = "" ↔ ∀ guid entry, ¬ ActiveMatch env m filterTopic guid entry
  noTypeInformation_iff : answer = noTypeInformation ↔
    (∃ guid entry, ActiveMatch env m filterTopic guid entry) ∧
      ∀ guid entry, ActiveMatch env m filterTopic guid entry → entry.typeIdl = ""
  least : answer ≠ "" → answer ≠ noTypeInformation →
    ∃ guid entry, ActiveMatch env m filterTopic guid entry ∧ entry.typeIdl = answer ∧
      ∀ guid' entry', ActiveMatch env m filterTopic guid' entry' → entry'.typeIdl ≠ "" →
        (DdsTopic.cmp entry.info.topic entry'.info.topic).isLE

theorem noTypeInformation_ne_empty : noTypeInformation ≠ "" := by decide

/-- A matching endpoint with a type IDL is found by the search. -/
theorem exists_search_of_activeMatch {guid : Guid} {entry : EndpointInfoData}
    (h : ActiveMatch env m filterTopic guid entry) (hidl : entry.typeIdl ≠ "") :
    ∃ topic ∈ (getTopics env m filterTopic).toList,
      DdsTopic.cmp entry.info.topic topic = .eq ∧ (typeIdlOf m topic).isSome = true := by
  obtain ⟨topic, htopic, hcmp⟩ := exists_listed_of_activeMatch h
  exact ⟨topic, htopic, hcmp, isSome_typeIdlOf h.entry_eq h.active hcmp hidl⟩

theorem idlAnswer_of_none
    (h : (getTopics env m filterTopic).toList.findSome? (typeIdlOf m) = none) :
    IdlAnswer env m filterTopic (topicsTypeIdl env m filterTopic) := by
  have hnoIdl : ∀ guid entry, ActiveMatch env m filterTopic guid entry → entry.typeIdl = "" := by
    intro guid entry hentry
    by_contra hidl
    obtain ⟨topic, htopic, -, hsome⟩ := exists_search_of_activeMatch hentry hidl
    simp [List.findSome?_eq_none_iff.mp h topic htopic] at hsome
  rw [topicsTypeIdl_eq, h]
  cases hempty : (getTopics env m filterTopic).isEmpty with
  | true =>
      have hnone := isEmpty_getTopics_iff.mp hempty
      change IdlAnswer env m filterTopic ""
      refine ⟨iff_of_true rfl hnone, iff_of_false noTypeInformation_ne_empty.symm ?_, ?_⟩
      · intro hsome
        obtain ⟨⟨guid, entry, hentry⟩, -⟩ := hsome
        exact hnone guid entry hentry
      · intro hne
        exact absurd rfl hne
  | false =>
      have hsome : ∃ guid entry, ActiveMatch env m filterTopic guid entry := by
        by_contra hnone
        push Not at hnone
        simp [isEmpty_getTopics_iff.mpr hnone] at hempty
      change IdlAnswer env m filterTopic noTypeInformation
      refine ⟨iff_of_false noTypeInformation_ne_empty ?_, iff_of_true rfl ⟨hsome, hnoIdl⟩, ?_⟩
      · intro hnone
        obtain ⟨guid, entry, hentry⟩ := hsome
        exact hnone guid entry hentry
      · intro _ hne
        exact absurd rfl hne

section Answer

variable (hfilter : ∀ topic topic', DdsTopic.cmp topic topic' = .eq →
    env.topicMatches filterTopic topic = env.topicMatches filterTopic topic')
include hfilter

/-- An active endpoint on a listed topic matches the filter itself. -/
theorem activeMatch_of_listed {topic : DdsTopic} {guid : Guid} {entry : EndpointInfoData}
    (htopic : topic ∈ (getTopics env m filterTopic).toList)
    (hentry : m.endpointDatabase[guid]? = some entry) (hactive : entry.info.active = true)
    (hcmp : DdsTopic.cmp entry.info.topic topic = .eq) :
    ActiveMatch env m filterTopic guid entry := by
  obtain ⟨_, other, hother, hcmp'⟩ := exists_activeMatch_of_listed htopic
  have hsame := TransCmp.eq_trans hcmp' (OrientedCmp.eq_symm hcmp)
  exact ⟨hentry, hactive, hfilter _ _ hsame ▸ hother.matching⟩

theorem exists_least_of_search {typeIdl : String}
    (h : (getTopics env m filterTopic).toList.findSome? (typeIdlOf m) = some typeIdl) :
    ∃ guid entry, ActiveMatch env m filterTopic guid entry ∧
      entry.typeIdl ≠ "" ∧ entry.typeIdl = typeIdl ∧
      ∀ guid' entry', ActiveMatch env m filterTopic guid' entry' → entry'.typeIdl ≠ "" →
        (DdsTopic.cmp entry.info.topic entry'.info.topic).isLE := by
  obtain ⟨topic, htopic, hfound, hleast⟩ :=
    exists_least_of_findSome? ExtTreeSet.ordered_toList h
  obtain ⟨guid, entry, hentry, hactive, hcmp, hidl, heq⟩ := exists_entry_of_typeIdlOf hfound
  refine ⟨guid, entry, activeMatch_of_listed hfilter htopic hentry hactive hcmp, hidl, heq, ?_⟩
  intro guid' entry' hentry' hidl'
  obtain ⟨topic', htopic', hcmp', hsome⟩ := exists_search_of_activeMatch hentry' hidl'
  have hle := hleast topic' htopic' hsome
  rwa [TransCmp.congr_left hcmp, TransCmp.congr_right hcmp']

/-- The IDL query answers from a matching topic or says why not. -/
theorem idlAnswer_topicsTypeIdl
    (hidl : ∀ (guid : Guid) (entry : EndpointInfoData), m.endpointDatabase[guid]? = some entry →
      entry.typeIdl ≠ noTypeInformation) :
    IdlAnswer env m filterTopic (topicsTypeIdl env m filterTopic) := by
  cases h : (getTopics env m filterTopic).toList.findSome? (typeIdlOf m) with
  | none => exact idlAnswer_of_none h
  | some typeIdl =>
      obtain ⟨guid, entry, hentry, hne, rfl, hleast⟩ := exists_least_of_search hfilter h
      rw [topicsTypeIdl_eq, h]
      refine ⟨iff_of_false hne ?_, iff_of_false (hidl guid entry hentry.entry_eq) ?_, ?_⟩
      · intro hnone
        exact hnone guid entry hentry
      · intro hempty
        exact hne (hempty.2 guid entry hentry)
      · intro _ _
        exact ⟨guid, entry, hentry, rfl, hleast⟩

end Answer

/-- Two writers under one topic name, the second with a type IDL. -/
def secondHasIdl : SpyModel Unit Unit :=
  ((SpyModel.empty false).newEndpointInfo (writerOn ⟨1, 2⟩ keyedTopic)).newEndpointInfo
    { writerOn ⟨2, 2⟩ otherTopic with typeIdl := "struct Other" }

theorem idlAnswer_secondHasIdl :
    IdlAnswer literal secondHasIdl { topicName := some "topic" } "struct Other" := by
  have hanswer : topicsTypeIdl literal secondHasIdl { topicName := some "topic" } =
      "struct Other" := by decide
  rw [← hanswer]
  refine idlAnswer_topicsTypeIdl ?_ ?_
  · intro topic topic' h
    simp [literal, DdsTopic.cmp_eq_iff.mp h]
  · intro guid entry h
    rw [secondHasIdl, endpointDatabase_newEndpointInfo, endpointDatabase_newEndpointInfo,
      ExtTreeMap.getElem?_insert, ExtTreeMap.getElem?_insert] at h
    split_ifs at h
    · rw [← Option.some.inj h]
      decide
    · rw [← Option.some.inj h]
      decide
    · simp [SpyModel.empty] at h

end FastDdsSpy.ModelParser
