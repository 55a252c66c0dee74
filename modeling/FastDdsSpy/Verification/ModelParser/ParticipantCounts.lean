import FastDdsSpy.Library.Counting
import FastDdsSpy.Verification.ModelParser.Lookups
import Mathlib.Data.List.Induction
import Mathlib.Data.List.Nodup

/-! # The endpoints in the participant view

The verbose view of a participant groups its endpoints by topic name. The grouping counts
all the entries of the participant, the endpoint views only those that are active. -/

namespace FastDdsSpy.ModelParser

open Std Counting

variable {τ κ : Type*} {env : External} {m : SpyModel τ κ}

/-! ## Grouping by topic name -/

/-- The number of endpoints on a topic of this name. -/
def countNamed (endpoints : List EndpointInfoData) (topicName : String) : ℕ :=
  endpoints.countP (fun endpoint => endpoint.info.topic.topicName == topicName)

theorem countNamed_concat (endpoints : List EndpointInfoData) (endpoint : EndpointInfoData)
    (topicName : String) : countNamed (endpoints ++ [endpoint]) topicName =
      if endpoint.info.topic.topicName = topicName then countNamed endpoints topicName + 1
      else countNamed endpoints topicName := by
  by_cases h : endpoint.info.topic.topicName = topicName <;> simp [countNamed, h]

/-- The index and the vector while endpoints are grouped: the index has the position of each
topic name, and the vector its number of endpoints. -/
structure Grouped (acc : TopicIndex) (endpoints : List EndpointInfoData) : Prop where
  index_iff : ∀ topicName i, acc.1[topicName]? = some i ↔
    ∃ entry : TopicEndpoints, acc.2[i]? = some entry ∧ entry.topicName = topicName
  number_eq : ∀ entry ∈ acc.2, entry.number = countNamed endpoints entry.topicName
  number_pos : ∀ entry ∈ acc.2, 0 < entry.number
  unknown : ∀ topicName, acc.1[topicName]? = none → countNamed endpoints topicName = 0

theorem getElem?_concat_eq_some_iff {α : Type*} {xs : List α} {x y : α} {i : ℕ} :
    (xs ++ [x])[i]? = some y ↔ xs[i]? = some y ∨ (i = xs.length ∧ x = y) := by
  rcases Nat.lt_trichotomy i xs.length with h | h | h
  · rw [List.getElem?_append_left h]
    simp [h.ne]
  · simp [h]
  · rw [List.getElem?_eq_none (by simp; omega), List.getElem?_eq_none (by omega)]
    simp [h.ne']

/-- A topic name without an index has no entry. -/
theorem Grouped.topicName_ne {acc : TopicIndex} {endpoints : List EndpointInfoData}
    (h : Grouped acc endpoints) {topicName : String} (hnone : acc.1[topicName]? = none) :
    ∀ entry ∈ acc.2, topicName ≠ entry.topicName := by
  intro entry hentry hname
  obtain ⟨i, hi⟩ := List.mem_iff_getElem?.mp hentry
  have hsome := (h.index_iff entry.topicName i).mpr ⟨entry, hi, rfl⟩
  simp [← hname, hnone] at hsome

/-- The index with a new entry at the end, for a topic name that had none. -/
theorem Grouped.index_concat {acc : TopicIndex} {endpoints : List EndpointInfoData}
    (h : Grouped acc endpoints) (new : TopicEndpoints) (hnone : acc.1[new.topicName]? = none)
    (topicName : String) (i : ℕ) :
    (acc.1.insert new.topicName acc.2.length)[topicName]? = some i ↔
      ∃ entry, (acc.2 ++ [new])[i]? = some entry ∧ entry.topicName = topicName := by
  simp only [ExtTreeMap.getElem?_insert, getElem?_concat_eq_some_iff, Std.compare_eq_iff_eq]
  by_cases hname : new.topicName = topicName
  · rw [if_pos hname, Option.some.injEq]
    constructor
    · intro hi
      exact ⟨new, .inr ⟨hi.symm, rfl⟩, hname⟩
    · intro hex
      obtain ⟨entry, hentry | ⟨hi, -⟩, htopic⟩ := hex
      · have hne := h.topicName_ne hnone entry (List.mem_of_getElem? hentry)
        exact absurd (hname.trans htopic.symm) hne
      · exact hi.symm
  · rw [if_neg hname, h.index_iff]
    constructor
    · intro hex
      obtain ⟨entry, hentry, htopic⟩ := hex
      exact ⟨entry, .inl hentry, htopic⟩
    · intro hex
      obtain ⟨entry, hentry | ⟨-, rfl⟩, htopic⟩ := hex
      · exact ⟨entry, hentry, htopic⟩
      · exact absurd htopic hname

/-- The first endpoint of a topic opens a new entry. -/
theorem Grouped.first {acc : TopicIndex} {endpoints : List EndpointInfoData}
    (h : Grouped acc endpoints) {endpoint : EndpointInfoData}
    (hnone : acc.1[endpoint.info.topic.topicName]? = none) (topicType : String) :
    Grouped (acc.1.insert endpoint.info.topic.topicName acc.2.length,
      acc.2 ++ [⟨endpoint.info.topic.topicName, topicType, 1⟩]) (endpoints ++ [endpoint]) := by
  refine ⟨h.index_concat ⟨_, topicType, 1⟩ hnone, ?_, ?_, ?_⟩
  · intro entry hentry
    rw [countNamed_concat]
    rcases List.mem_append.mp hentry with hold | hnew
    · rw [if_neg (h.topicName_ne hnone entry hold), h.number_eq entry hold]
    · obtain rfl := List.mem_singleton.mp hnew
      rw [if_pos rfl, h.unknown _ hnone]
  · intro entry hentry
    rcases List.mem_append.mp hentry with hold | hnew
    · exact h.number_pos entry hold
    · obtain rfl := List.mem_singleton.mp hnew
      exact Nat.one_pos
  · intro topicName hunknown
    rw [ExtTreeMap.getElem?_insert] at hunknown
    split at hunknown
    · simp at hunknown
    · rename_i hname
      rw [countNamed_concat, if_neg (fun heq => hname (Std.compare_eq_iff_eq.mpr heq)),
        h.unknown topicName hunknown]

/-- The entry with one more endpoint if its topic has this name. -/
def countAlso (topicName : String) (entry : TopicEndpoints) : TopicEndpoints :=
  if topicName = entry.topicName then { entry with number := entry.number + 1 } else entry

@[simp] theorem topicName_countAlso (topicName : String) (entry : TopicEndpoints) :
    (countAlso topicName entry).topicName = entry.topicName := by
  unfold countAlso
  split <;> rfl

theorem number_countAlso (topicName : String) (entry : TopicEndpoints) :
    (countAlso topicName entry).number =
      if topicName = entry.topicName then entry.number + 1 else entry.number := by
  unfold countAlso
  split <;> rfl

/-- The index points at the one entry of the topic name. -/
theorem Grouped.modify_eq {acc : TopicIndex} {endpoints : List EndpointInfoData}
    (h : Grouped acc endpoints) {topicName : String} {i : ℕ} (hi : acc.1[topicName]? = some i) :
    acc.2.modify i (fun entry => { entry with number := entry.number + 1 }) =
      acc.2.map (countAlso topicName) := by
  refine List.ext_getElem? fun j => ?_
  rw [List.getElem?_modify, List.getElem?_map]
  cases hentry : acc.2[j]? with
  | none => rfl
  | some entry =>
      have hindex : i = j ↔ topicName = entry.topicName := by
        constructor
        · rintro rfl
          obtain ⟨entry', hentry', hname⟩ := (h.index_iff topicName i).mp hi
          rw [hentry'] at hentry
          exact Option.some.inj hentry ▸ hname.symm
        · intro hname
          have hj := (h.index_iff topicName j).mpr ⟨entry, hentry, hname.symm⟩
          exact Option.some.inj (hi.symm.trans hj)
      simp [countAlso, hindex]

/-- A further endpoint of a topic is counted in its entry. -/
theorem Grouped.further {acc : TopicIndex} {endpoints : List EndpointInfoData}
    (h : Grouped acc endpoints) {endpoint : EndpointInfoData} {i : ℕ}
    (hi : acc.1[endpoint.info.topic.topicName]? = some i) :
    Grouped (acc.1, acc.2.map (countAlso endpoint.info.topic.topicName))
      (endpoints ++ [endpoint]) := by
  refine ⟨fun topicName j => ?_, fun entry hentry => ?_, fun entry hentry => ?_,
    fun topicName hunknown => ?_⟩
  · simp [h.index_iff, List.getElem?_map]
  · obtain ⟨old, hold, rfl⟩ := List.mem_map.mp hentry
    rw [number_countAlso, topicName_countAlso, countNamed_concat, h.number_eq old hold]
  · obtain ⟨old, hold, rfl⟩ := List.mem_map.mp hentry
    have hpos := h.number_pos old hold
    rw [number_countAlso]
    split
    · omega
    · exact hpos
  · have hne : endpoint.info.topic.topicName ≠ topicName := by
      rintro rfl
      simp [hi] at hunknown
    rw [countNamed_concat, if_neg hne, h.unknown topicName hunknown]

theorem grouped_foldl (env : External) (hros2 : m.ros2Types = false)
    (endpoints : List EndpointInfoData) :
    Grouped (endpoints.foldl (addEndpointToVector env m) (∅, [])) endpoints := by
  induction endpoints using List.reverseRecOn with
  | nil => exact ⟨by simp, by simp, by simp, fun _ _ => rfl⟩
  | append_singleton endpoints endpoint ih =>
      rw [List.foldl_concat]
      cases hi : (endpoints.foldl (addEndpointToVector env m)
          (∅, [])).1[endpoint.info.topic.topicName]? with
      | none =>
          have hfirst := ih.first hi endpoint.info.topic.typeName
          simpa [addEndpointToVector, hi, displayedTopic, displayedType, hros2] using hfirst
      | some i =>
          have hfurther := ih.further hi
          rw [← ih.modify_eq hi] at hfurther
          simpa [addEndpointToVector, hi] using hfurther

/-! ## What a list of a participant reports -/

/-- The list has one entry for each topic name with a positive number, and that number. -/
structure Reports (list : List TopicEndpoints) (number : String → ℕ) : Prop where
  nodup : (list.map TopicEndpoints.topicName).Nodup
  number_iff : ∀ topicName n, (∃ topicType, ⟨topicName, topicType, n⟩ ∈ list) ↔
    n = number topicName ∧ 0 < n

theorem Grouped.nodup {acc : TopicIndex} {endpoints : List EndpointInfoData}
    (h : Grouped acc endpoints) : (acc.2.map TopicEndpoints.topicName).Nodup := by
  rw [List.nodup_iff_getElem?_ne_getElem?]
  intro i j hij hj heq
  rw [List.length_map] at hj
  have hentry : acc.2[j]? = some acc.2[j] := List.getElem?_eq_getElem hj
  rw [List.getElem?_map, List.getElem?_map, hentry, Option.map_some,
    Option.map_eq_some_iff] at heq
  have hi := (h.index_iff acc.2[j].topicName i).mpr heq
  have hindex := (h.index_iff acc.2[j].topicName j).mpr ⟨_, hentry, rfl⟩
  have hsame := Option.some.inj (hi.symm.trans hindex)
  omega

theorem reports_groupEndpoints (env : External) (hros2 : m.ros2Types = false)
    (endpoints : List EndpointInfoData) :
    Reports (groupEndpoints env m endpoints) (countNamed endpoints) := by
  have h := grouped_foldl env hros2 endpoints
  refine ⟨h.nodup, fun topicName n => ⟨fun hreported => ?_, fun hn => ?_⟩⟩
  · obtain ⟨topicType, hmem⟩ := hreported
    exact ⟨h.number_eq _ hmem, h.number_pos _ hmem⟩
  · obtain ⟨rfl, hpos⟩ := hn
    cases hi : (endpoints.foldl (addEndpointToVector env m) (∅, [])).1[topicName]? with
    | none =>
        have hzero := h.unknown topicName hi
        omega
    | some i =>
        obtain ⟨entry, hentry, rfl⟩ := (h.index_iff topicName i).mp hi
        have hmem := List.mem_of_getElem? hentry
        rw [← h.number_eq entry hmem]
        exact ⟨entry.topicType, hmem⟩

theorem reports_nil : Reports [] (fun _ => 0) := ⟨by simp, by simp⟩

/-- A list reports one number for each topic name. -/
theorem Reports.iff_eq {list : List TopicEndpoints} {number number' : String → ℕ}
    (h : Reports list number) :
    Reports list number' ↔ ∀ topicName, number topicName = number' topicName := by
  constructor
  · intro h' topicName
    rcases Nat.eq_zero_or_pos (number topicName) with hzero | hpos
    · by_contra hne
      have hpos' : 0 < number' topicName := by omega
      have hreported := (h.number_iff topicName _).mp ((h'.number_iff topicName _).mpr ⟨rfl, hpos'⟩)
      omega
    · exact ((h'.number_iff topicName _).mp ((h.number_iff topicName _).mpr ⟨rfl, hpos⟩)).1
  · intro heq
    rwa [← funext heq]

/-! ## Against the endpoint views -/

/-- The entries of a kind under a participant prefix, active or not. -/
def endpointsOf (m : SpyModel τ κ) (kind : EndpointKind) (guidPrefix : BitVec 96) :
    List EndpointInfoData :=
  (m.endpointDatabase.toList.map Prod.snd).filter (fun endpoint =>
    endpoint.info.kind == kind && endpoint.info.guid.guidPrefix == guidPrefix)

theorem mem_endpointsOf {kind : EndpointKind} {guidPrefix : BitVec 96} {guid : Guid}
    {endpoint : EndpointInfoData} (hentry : m.endpointDatabase[guid]? = some endpoint)
    (hkind : endpoint.info.kind = kind) (hguid : endpoint.info.guid.guidPrefix = guidPrefix) :
    endpoint ∈ endpointsOf m kind guidPrefix := by
  refine List.mem_filter.mpr ⟨List.mem_map.mpr ⟨(guid, endpoint), ?_, rfl⟩, ?_⟩
  · exact ExtTreeMap.mem_toList_iff_getElem?_eq_some.mpr hentry
  · simp [hkind, hguid]

/-- The number of endpoints in a listing that have this prefix and topic name. -/
def numberListed (listing : List SimpleEndpointData) (guidPrefix : BitVec 96)
    (topicName : String) : ℕ :=
  listing.countP (fun data => data.guid.guidPrefix == guidPrefix && data.topicName == topicName)

theorem numberListed_eq (hros2 : m.ros2Types = false) (kind : EndpointKind)
    (guidPrefix : BitVec 96) (topicName : String) :
    numberListed (setEndpointSimpleInformation env m kind) guidPrefix topicName =
      countNamed ((endpointsOf m kind guidPrefix).filter (fun endpoint => endpoint.info.active))
        topicName := by
  rw [numberListed, setEndpointSimpleInformation, List.countP_map, List.countP_filter, countNamed,
    endpointsOf, List.countP_filter, List.countP_filter, List.countP_map]
  refine List.countP_congr fun endpoint _ => ?_
  simp only [Function.comp_apply, fillSimpleEndpoint, displayedTopic, hros2, Bool.and_eq_true]
  tauto

theorem participantsByGuid_lists (env : External) {guid : Guid} {info : ParticipantInfo}
    (h : m.participantDatabase[guid]? = some info) :
    (participantsByGuid env m guid).writers = (if guid.isValid then
        groupEndpoints env m (endpointsOf m .writer guid.guidPrefix) else []) ∧
      (participantsByGuid env m guid).readers = (if guid.isValid then
        groupEndpoints env m (endpointsOf m .reader guid.guidPrefix) else []) := by
  have hfind : m.participantDatabase.toList.find? (fun it => it.1 == guid) = some (guid, info) :=
    find?_toList h (by simp) (by simp)
  rw [participantsByGuid, hfind]
  by_cases hvalid : guid.isValid = true
  · simp only [hvalid, if_true, List.filter_filter, endpointsOf]
    constructor
    · congr 1
      refine List.filter_congr fun endpoint _ => ?_
      have hkind : ∀ kind : EndpointKind,
          (!kind == .reader && kind == .writer) = (kind == .writer) := by
        intro kind
        cases kind <;> rfl
      simp only [EndpointInfo.isReader, EndpointInfo.isWriter, hkind]
    · rfl
  · simp [hvalid]

/-- The list of a participant agrees with the listing of a kind exactly when all entries of
the kind under its prefix are active, or inactive if its GUID is not valid. -/
theorem reports_numberListed_iff (hros2 : m.ros2Types = false) (kind : EndpointKind)
    (guid : Guid) :
    Reports (if guid.isValid then groupEndpoints env m (endpointsOf m kind guid.guidPrefix) else [])
        (numberListed (setEndpointSimpleInformation env m kind) guid.guidPrefix) ↔
      ∀ endpoint ∈ endpointsOf m kind guid.guidPrefix, endpoint.info.active = guid.isValid := by
  cases hvalid : guid.isValid with
  | true =>
      have hcount : ∀ topicName, countNamed (endpointsOf m kind guid.guidPrefix) topicName =
          numberListed (setEndpointSimpleInformation env m kind) guid.guidPrefix topicName ↔
            ∀ endpoint ∈ endpointsOf m kind guid.guidPrefix,
              endpoint.info.topic.topicName = topicName → endpoint.info.active = true := by
        intro topicName
        rw [eq_comm, numberListed_eq hros2, countNamed, countNamed, List.countP_filter,
          countP_eq_countP_iff fun endpoint _ h => (Bool.and_eq_true_iff.mp h).1]
        simp only [Bool.and_eq_true, beq_iff_eq]
        exact forall₂_congr fun endpoint _ => imp_congr_right fun hname => and_iff_right hname
      rw [if_pos rfl, (reports_groupEndpoints env hros2 _).iff_eq, forall_congr' hcount]
      constructor
      · intro h endpoint hendpoint
        exact h _ endpoint hendpoint rfl
      · intro h topicName endpoint hendpoint _
        exact h endpoint hendpoint
  | false =>
      rw [if_neg (by simp), reports_nil.iff_eq]
      constructor
      · intro h endpoint hendpoint
        have hzero := (h endpoint.info.topic.topicName).symm
        rw [numberListed_eq hros2, countNamed, List.countP_filter, List.countP_eq_zero] at hzero
        simpa using hzero endpoint hendpoint
      · intro h topicName
        rw [numberListed_eq hros2, countNamed, List.countP_filter, eq_comm, List.countP_eq_zero]
        intro endpoint hendpoint
        simp [h endpoint hendpoint]

/-- The verbose view of the participants agrees with the endpoint views. -/
def ParticipantsAgree (env : External) (m : SpyModel τ κ) : Prop :=
  ∀ data ∈ participantsVerbose env m,
    Reports data.writers (numberListed (writers env m) data.guid.guidPrefix) ∧
    Reports data.readers (numberListed (readers env m) data.guid.guidPrefix)

/-- Under the prefix of an active participant every writer and reader in the database is
active, and there is none that is if the GUID of the participant is not valid. -/
def EndpointsAlive (m : SpyModel τ κ) : Prop :=
  ∀ (guid : Guid) (info : ParticipantInfo), m.participantDatabase[guid]? = some info →
    info.active = true → ∀ kind ∈ [EndpointKind.writer, .reader],
      ∀ endpoint ∈ endpointsOf m kind guid.guidPrefix, endpoint.info.active = guid.isValid

theorem reports_participantsByGuid_iff (env : External) (hros2 : m.ros2Types = false)
    {guid : Guid} {info : ParticipantInfo} (h : m.participantDatabase[guid]? = some info) :
    (Reports (participantsByGuid env m guid).writers
          (numberListed (writers env m) guid.guidPrefix) ∧
        Reports (participantsByGuid env m guid).readers
          (numberListed (readers env m) guid.guidPrefix)) ↔
      ∀ kind ∈ [EndpointKind.writer, .reader],
        ∀ endpoint ∈ endpointsOf m kind guid.guidPrefix, endpoint.info.active = guid.isValid := by
  obtain ⟨hwriters, hreaders⟩ := participantsByGuid_lists env h
  rw [hwriters, hreaders, writers, readers, reports_numberListed_iff hros2,
    reports_numberListed_iff hros2]
  simp

theorem participantsAgree_iff_endpointsAlive (env : External) (hros2 : m.ros2Types = false)
    (hkey : ParticipantsKeyed m) : ParticipantsAgree env m ↔ EndpointsAlive m := by
  have hfound {guid : Guid} {info : ParticipantInfo}
      (h : m.participantDatabase[guid]? = some info) :
      (participantsByGuid env m guid).guid = guid := by
    rw [participantsByGuid_of_entry env h]
  constructor
  · intro h guid info hinfo hactive
    have hguid := hkey guid info hinfo
    have hdata : participantsByGuid env m guid ∈ participantsVerbose env m :=
      List.mem_map.mpr ⟨(guid, info), List.mem_filter.mpr
        ⟨ExtTreeMap.mem_toList_iff_getElem?_eq_some.mpr hinfo, hactive⟩, by rw [hguid]⟩
    have hreports := h _ hdata
    rw [hfound hinfo] at hreports
    exact (reports_participantsByGuid_iff env hros2 hinfo).mp hreports
  · intro h data hdata
    obtain ⟨it, hit, rfl⟩ := List.mem_map.mp hdata
    obtain ⟨hmem, hactive⟩ := List.mem_filter.mp hit
    have hinfo := ExtTreeMap.mem_toList_iff_getElem?_eq_some.mp hmem
    rw [hkey it.1 it.2 hinfo, hfound hinfo]
    exact (reports_participantsByGuid_iff env hros2 hinfo).mpr (h it.1 it.2 hinfo hactive)

end FastDdsSpy.ModelParser
