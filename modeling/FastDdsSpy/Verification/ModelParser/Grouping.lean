import FastDdsSpy.Library.GroupByKey
import FastDdsSpy.Verification.ModelParser.ParticipantCounts

/-! # The topics of a participant

The endpoints of a participant are grouped by the raw name of their topic, and the names and
types are demangled where they are shown. The shown vector is that of the raw names with
every entry demangled, so the positions kept for the raw names fit it. -/

namespace FastDdsSpy.ModelParser

open Std GroupByKey

variable {τ κ : Type*} (env : External) (m : SpyModel τ κ)

/-- The name that the index is keyed on. -/
def rawName (endpoint : EndpointInfoData) : String := endpoint.info.topic.topicName

/-- The entry for the endpoints of a topic: the name and the type of the first of them, which
are demangled when `ros2_types` is on, and their number. -/
def groupEntry (group : EndpointInfoData × ℕ) : TopicEndpoints where
  topicName :=
    if m.ros2Types then env.demangleIfRosTopic group.1.info.topic.topicName
    else group.1.info.topic.topicName
  topicType :=
    if m.ros2Types then env.demangleIfRosType group.1.info.topic.typeName
    else group.1.info.topic.typeName
  number := group.2

/-! ## Raw names -/

/-- The model with the demangling of names switched off. -/
def withRawNames : SpyModel τ κ := { m with ros2Types := false }

/-- An entry with its names demangled. -/
def demangled (entry : TopicEndpoints) : TopicEndpoints where
  topicName := displayedTopic env m entry.topicName
  topicType := displayedType env m entry.topicType
  number := entry.number

theorem modify_map_demangled (entries : List TopicEndpoints) (i : ℕ) :
    (entries.map (demangled env m)).modify i
        (fun entry => { entry with number := entry.number + 1 }) =
      (entries.modify i (fun entry => { entry with number := entry.number + 1 })).map
        (demangled env m) := by
  refine List.ext_getElem? fun j => ?_
  rw [List.getElem?_modify, List.getElem?_map, List.getElem?_map, List.getElem?_modify]
  cases entries[j]? with
  | none => rfl
  | some entry => by_cases hij : i = j <;> simp [hij, demangled]

theorem addEndpointToVector_demangled (acc : TopicIndex) (endpoint : EndpointInfoData) :
    addEndpointToVector env m (acc.1, acc.2.map (demangled env m)) endpoint =
      ((addEndpointToVector env (withRawNames m) acc endpoint).1,
        (addEndpointToVector env (withRawNames m) acc endpoint).2.map (demangled env m)) := by
  cases h : acc.1[endpoint.info.topic.topicName]? with
  | none => simp [addEndpointToVector, h, displayedTopic, displayedType, demangled, withRawNames]
  | some i => simp [addEndpointToVector, h, modify_map_demangled]

/-- The endpoints are grouped as with raw names, and the vector shows the names demangled. -/
theorem foldl_addEndpointToVector_demangled (endpoints : List EndpointInfoData) :
    endpoints.foldl (addEndpointToVector env m) (∅, []) =
      ((endpoints.foldl (addEndpointToVector env (withRawNames m)) (∅, [])).1,
        (endpoints.foldl (addEndpointToVector env (withRawNames m)) (∅, [])).2.map
          (demangled env m)) := by
  induction endpoints using List.reverseRecOn with
  | nil => rfl
  | append_singleton endpoints endpoint ih =>
      rw [List.foldl_concat, List.foldl_concat, ih, addEndpointToVector_demangled]

variable {m}

/-- The index has the raw names of the endpoints so far. -/
theorem Grouped.isSome_iff {acc : TopicIndex} {endpoints : List EndpointInfoData}
    (h : Grouped acc endpoints) (topicName : String) :
    acc.1[topicName]?.isSome = true ↔ topicName ∈ endpoints.map rawName := by
  have hcount : 0 < countNamed endpoints topicName ↔ topicName ∈ endpoints.map rawName := by
    simp [countNamed, List.countP_pos_iff, rawName]
  rw [← hcount]
  cases hi : acc.1[topicName]? with
  | none => simp [h.unknown topicName hi]
  | some i =>
      obtain ⟨entry, hentry, rfl⟩ := (h.index_iff topicName i).mp hi
      have hmem := List.mem_of_getElem? hentry
      have hpos := h.number_pos entry hmem
      rw [h.number_eq entry hmem] at hpos
      exact iff_of_true rfl hpos

theorem countAlso_groupEntry (topicName : String) (group : EndpointInfoData × ℕ) :
    countAlso topicName (groupEntry env (withRawNames m) group) =
      groupEntry env (withRawNames m)
        (group.1, if topicName = rawName group.1 then group.2 + 1 else group.2) := by
  by_cases h : topicName = rawName group.1 <;>
    simp_all [countAlso, groupEntry, withRawNames, rawName]

/-- With raw names the vector has the groups of the endpoints, one entry for each. -/
theorem foldl_addEndpointToVector_raw (endpoints : List EndpointInfoData) :
    (endpoints.foldl (addEndpointToVector env (withRawNames m)) (∅, [])).2 =
      (groups rawName endpoints).map (groupEntry env (withRawNames m)) := by
  induction endpoints using List.reverseRecOn with
  | nil => rfl
  | append_singleton endpoints endpoint ih =>
      have hgrouped := grouped_foldl (m := withRawNames m) env rfl endpoints
      rw [List.foldl_concat]
      cases hi : (endpoints.foldl (addEndpointToVector env (withRawNames m))
          (∅, [])).1[endpoint.info.topic.topicName]? with
      | none =>
          have hnew : rawName endpoint ∉ endpoints.map rawName := by
            rw [← hgrouped.isSome_iff, rawName, hi]
            simp
          simp [addEndpointToVector, hi, ih, groups_concat_of_not_mem hnew, groupEntry,
            displayedTopic, displayedType]
      | some i =>
          have hknown : rawName endpoint ∈ endpoints.map rawName := by
            rw [← hgrouped.isSome_iff, rawName, hi]
            rfl
          rw [groups_concat_of_mem hknown, List.map_map]
          simp only [addEndpointToVector, hi]
          rw [hgrouped.modify_eq hi, ih, List.map_map]
          exact List.map_congr_left fun group _ => countAlso_groupEntry env _ group

/-! ## Shown names -/

/-- The index and the vector after these endpoints: the vector has one entry for each group
by raw name, and the index the position of the entry of each raw name. -/
structure GroupsOnce (env : External) (m : SpyModel τ κ) (endpoints : List EndpointInfoData)
    (acc : TopicIndex) : Prop where
  grouping : IsGrouping rawName endpoints (groups rawName endpoints)
  vector_eq : acc.2 = (groups rawName endpoints).map (groupEntry env m)
  index_iff : ∀ (topicName : String) (i : ℕ), acc.1[topicName]? = some i ↔
    ∃ group, (groups rawName endpoints)[i]? = some group ∧ rawName group.1 = topicName
  index_lt : ∀ (topicName : String) (i : ℕ), acc.1[topicName]? = some i → i < acc.2.length
  sum_number : (acc.2.map TopicEndpoints.number).sum = endpoints.length

theorem groupsOnce_of_vector_eq {endpoints : List EndpointInfoData} {acc : TopicIndex}
    (hvector : acc.2 = (groups rawName endpoints).map (groupEntry env m))
    (hindex : ∀ (topicName : String) (i : ℕ), acc.1[topicName]? = some i ↔
      ∃ group, (groups rawName endpoints)[i]? = some group ∧ rawName group.1 = topicName) :
    GroupsOnce env m endpoints acc := by
  refine ⟨isGrouping_groups endpoints, hvector, hindex, ?_, ?_⟩
  · intro topicName i hi
    obtain ⟨group, hgroup, -⟩ := (hindex topicName i).mp hi
    rw [hvector, List.length_map]
    exact (List.getElem?_eq_some_iff.mp hgroup).fst
  · have hsum : ((groups rawName endpoints).map Prod.snd).sum = endpoints.length :=
      (isGrouping_groups endpoints).sum_size
    rw [hvector, List.map_map, ← hsum]
    rfl

theorem demangled_groupEntry (group : EndpointInfoData × ℕ) :
    demangled env m (groupEntry env (withRawNames m) group) = groupEntry env m group := rfl

/-- Feeding endpoints from an empty index and vector groups them. -/
theorem groupsOnce_foldl (m : SpyModel τ κ) (endpoints : List EndpointInfoData) :
    GroupsOnce env m endpoints (endpoints.foldl (addEndpointToVector env m) (∅, [])) := by
  have hgrouped := grouped_foldl (m := withRawNames m) env rfl endpoints
  have hraw := foldl_addEndpointToVector_raw (m := m) env endpoints
  rw [foldl_addEndpointToVector_demangled]
  apply groupsOnce_of_vector_eq
  · rw [hraw, List.map_map]
    exact List.map_congr_left fun group _ => demangled_groupEntry env group
  · intro topicName i
    rw [hgrouped.index_iff, hraw, List.getElem?_map]
    simp only [Option.map_eq_some_iff, exists_exists_and_eq_and]
    rfl

/-! ## Readers and writers -/

/-- The endpoints of a kind under a participant prefix. -/
def fed (kind : EndpointKind) (guidPrefix : BitVec 96) (endpoints : List EndpointInfoData) :
    List EndpointInfoData :=
  endpoints.filter (fun endpoint =>
    endpoint.info.kind == kind && endpoint.info.guid.guidPrefix == guidPrefix)

/-- The loop feeds the readers to the one pair and the writers to the other. -/
theorem participantsLoop_eq (m : SpyModel τ κ) (guidPrefix : BitVec 96)
    (endpoints : List EndpointInfoData) : participantsLoop env m guidPrefix endpoints =
      ((fed .reader guidPrefix endpoints).foldl (addEndpointToVector env m) (∅, []),
        (fed .writer guidPrefix endpoints).foldl (addEndpointToVector env m) (∅, [])) := by
  unfold participantsLoop
  induction endpoints using List.reverseRecOn with
  | nil => rfl
  | append_singleton endpoints endpoint ih =>
      rw [List.foldl_concat, ih]
      by_cases hprefix : endpoint.info.guid.guidPrefix = guidPrefix
      · cases hkind : endpoint.info.kind <;>
          simp [fed, hprefix, hkind, EndpointInfo.isReader, EndpointInfo.isWriter]
      · simp [fed, hprefix]

/-- The lists of a participant that is found under a valid GUID are those of the loop. -/
theorem participantsByGuid_eq_loop (m : SpyModel τ κ) (guid : Guid) :
    ((participantsByGuid env m guid).readers, (participantsByGuid env m guid).writers) =
      if (participantsByGuid env m guid).guid.isValid then
        ((participantsLoop env m guid.guidPrefix (m.endpointDatabase.toList.map Prod.snd)).1.2,
          (participantsLoop env m guid.guidPrefix (m.endpointDatabase.toList.map Prod.snd)).2.2)
      else ([], []) := by
  cases hfind : m.participantDatabase.toList.find? (fun it => it.1 == guid) with
  | none =>
      rw [participantsByGuid, hfind]
      rfl
  | some it =>
      have hkey := List.find?_some hfind
      have hguid : it.1 = guid := beq_iff_eq.mp hkey
      have hentry : m.participantDatabase[guid]? = some it.2 :=
        hguid ▸ ExtTreeMap.mem_toList_iff_getElem?_eq_some.mp (List.mem_of_find?_eq_some hfind)
      obtain ⟨hwriters, hreaders⟩ := participantsByGuid_lists env hentry
      rw [hwriters, hreaders, participantsByGuid_of_entry env hentry, participantsLoop_eq]
      cases guid.isValid <;> rfl

/-- Grouping the endpoints of a participant by topic loses and duplicates nothing, for any
endpoints that are fed, and the readers and the writers are grouped independently. -/
theorem participants_groupsOnce (m : SpyModel τ κ) :
    (∀ endpoints,
      GroupsOnce env m endpoints (endpoints.foldl (addEndpointToVector env m) (∅, []))) ∧
    (∀ guidPrefix endpoints, participantsLoop env m guidPrefix endpoints =
      ((fed .reader guidPrefix endpoints).foldl (addEndpointToVector env m) (∅, []),
        (fed .writer guidPrefix endpoints).foldl (addEndpointToVector env m) (∅, []))) ∧
    ∀ guid, ((participantsByGuid env m guid).readers, (participantsByGuid env m guid).writers) =
      if (participantsByGuid env m guid).guid.isValid then
        ((participantsLoop env m guid.guidPrefix (m.endpointDatabase.toList.map Prod.snd)).1.2,
          (participantsLoop env m guid.guidPrefix (m.endpointDatabase.toList.map Prod.snd)).2.2)
      else ([], []) :=
  ⟨groupsOnce_foldl env m, participantsLoop_eq env m, participantsByGuid_eq_loop env m⟩

end FastDdsSpy.ModelParser
