import FastDdsSpy.Verification.ModelParser.Lookups

/-! # The set of listed topics

Two topics are the same element of the set when they have the same name and type name. The
set has one element for each topic of an active endpoint that matches the filter. -/

namespace FastDdsSpy

open Std

theorem DdsTopic.cmp_eq_iff {topic topic' : DdsTopic} : cmp topic topic' = .eq ↔
    topic.topicName = topic'.topicName ∧ topic.typeName = topic'.typeName := by
  rw [cmp, compareLex_eq_eq]
  simp [compareOn]

/-- An element of a set is equivalent to a listed one. -/
theorem mem_iff_exists_mem_toList {α : Type*} {cmp : α → α → Ordering} [TransCmp cmp]
    {set : ExtTreeSet α cmp} {a : α} : a ∈ set ↔ ∃ b ∈ set.toList, cmp a b = .eq := by
  let : BEq α := ⟨fun a b => cmp a b == .eq⟩
  have : LawfulBEqCmp cmp := ⟨beq_iff_eq.symm⟩
  rw [ExtTreeSet.mem_iff_contains, ← ExtTreeSet.contains_toList, List.contains_iff_exists_mem_beq]
  exact exists_congr fun b => and_congr_right fun _ => LawfulBEqCmp.compare_eq_iff_beq.symm

theorem mem_foldl_insert {α β : Type*} {cmp : α → α → Ordering} [TransCmp cmp] (f : β → α)
    (xs : List β) (set : ExtTreeSet α cmp) (a : α) :
    a ∈ xs.foldl (fun result x => result.insert (f x)) set ↔
      a ∈ set ∨ ∃ x ∈ xs, cmp (f x) a = .eq := by
  induction xs generalizing set with
  | nil => simp
  | cons x xs ih =>
      rw [List.foldl_cons, ih, ExtTreeSet.mem_insert]
      simp only [List.mem_cons, exists_eq_or_imp]
      rw [or_assoc, or_left_comm]

namespace ModelParser

variable {τ κ : Type*} {env : External} {m : SpyModel τ κ}

theorem mem_getTopics {filterTopic : WildcardDdsFilterTopic} {topic : DdsTopic} :
    topic ∈ getTopics env m filterTopic ↔ ∃ endpoint ∈ m.endpointDatabase.toList,
      (endpoint.2.info.active = true ∧
        env.topicMatches filterTopic endpoint.2.info.topic = true) ∧
      DdsTopic.cmp endpoint.2.info.topic topic = .eq := by
  rw [getTopics_eq, mem_foldl_insert]
  simp [and_assoc]

/-- The topic of an active endpoint that matches the filter is listed. -/
theorem exists_listed_topic {filterTopic : WildcardDdsFilterTopic}
    {endpoint : Guid × EndpointInfoData} (hmem : endpoint ∈ m.endpointDatabase.toList)
    (hactive : endpoint.2.info.active = true)
    (hmatch : env.topicMatches filterTopic endpoint.2.info.topic = true) :
    ∃ topic ∈ (getTopics env m filterTopic).toList,
      DdsTopic.cmp endpoint.2.info.topic topic = .eq :=
  mem_iff_exists_mem_toList.mp
    (mem_getTopics.mpr ⟨endpoint, hmem, ⟨hactive, hmatch⟩, ReflCmp.compare_self⟩)

/-- A listed topic is that of an active endpoint that matches the filter. -/
theorem exists_endpoint_of_listed {filterTopic : WildcardDdsFilterTopic} {topic : DdsTopic}
    (h : topic ∈ (getTopics env m filterTopic).toList) :
    ∃ endpoint ∈ m.endpointDatabase.toList, (endpoint.2.info.active = true ∧
        env.topicMatches filterTopic endpoint.2.info.topic = true) ∧
      DdsTopic.cmp endpoint.2.info.topic topic = .eq :=
  mem_getTopics.mp (mem_iff_exists_mem_toList.mpr ⟨topic, h, ReflCmp.compare_self⟩)

theorem mem_activeOnTopic {topicName : String} {endpoint : Guid × EndpointInfoData} :
    endpoint ∈ activeOnTopic m topicName ↔ m.endpointDatabase[endpoint.1]? = some endpoint.2 ∧
      endpoint.2.info.active = true ∧ endpoint.2.info.topic.topicName = topicName := by
  rw [← ExtTreeMap.mem_toList_iff_getElem?_eq_some]
  simp [activeOnTopic]

end ModelParser

end FastDdsSpy
