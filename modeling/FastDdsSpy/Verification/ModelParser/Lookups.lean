import FastDdsSpy.Verification.ModelParser.Inactive

/-! # Queries by GUID

The verbose listings look every entity up again by the GUID in its entry. They find the
same entry when entries are stored under the GUID that they carry. -/

namespace FastDdsSpy.ModelParser

open Std

variable {τ κ : Type*} (env : External) {m : SpyModel τ κ}

/-- Participants are stored under the GUID that they carry. -/
def ParticipantsKeyed (m : SpyModel τ κ) : Prop :=
  ∀ (guid : Guid) (info : ParticipantInfo), m.participantDatabase[guid]? = some info →
    info.guid = guid

theorem endpointDatabase_newEndpointInfo (m : SpyModel τ κ) (endpointInfo : EndpointInfoData) :
    (m.newEndpointInfo endpointInfo).endpointDatabase =
      m.endpointDatabase.insert endpointInfo.info.guid endpointInfo := by
  by_cases hw : endpointInfo.info.isWriter = true <;> simp [SpyModel.newEndpointInfo, hw]

theorem keyedByGuid_empty (ros2Types : Bool) :
    KeyedByGuid (SpyModel.empty ros2Types : SpyModel τ κ) := by
  intro guid entry hentry
  simp [SpyModel.empty] at hentry

/-- A discovery record is stored under its own GUID. -/
theorem KeyedByGuid.newEndpointInfo (h : KeyedByGuid m) (endpointInfo : EndpointInfoData) :
    KeyedByGuid (m.newEndpointInfo endpointInfo) := by
  intro guid entry hentry
  rw [endpointDatabase_newEndpointInfo, ExtTreeMap.getElem?_insert] at hentry
  split at hentry
  · rename_i hcmp
    rw [← Option.some.inj hentry]
    exact LawfulEqCmp.eq_of_compare hcmp
  · exact h guid entry hentry

/-- The active entries of a kind, in the order of the listings. -/
def activeOfKind (m : SpyModel τ κ) (kind : EndpointKind) : List (Guid × EndpointInfoData) :=
  m.endpointDatabase.toList.filter
    (fun endpoint => endpoint.2.info.active && endpoint.2.info.kind == kind)

theorem mem_activeOfKind {kind : EndpointKind} {endpoint : Guid × EndpointInfoData} :
    endpoint ∈ activeOfKind m kind ↔ m.endpointDatabase[endpoint.1]? = some endpoint.2 ∧
      endpoint.2.info.active = true ∧ endpoint.2.info.kind = kind := by
  rw [← ExtTreeMap.mem_toList_iff_getElem?_eq_some]
  simp [activeOfKind]

/-! ## Finding an entry -/

/-- A scan for one key finds the entry of that key. -/
theorem find?_toList {β : Type*} {database : ExtTreeMap Guid β} {guid : Guid} {entry : β}
    {select : Guid × β → Bool} (hentry : database[guid]? = some entry)
    (hselect : select (guid, entry) = true) (hkey : ∀ it, select it = true → it.1 = guid) :
    database.toList.find? select = some (guid, entry) := by
  have hmem : (guid, entry) ∈ database.toList := ExtTreeMap.mem_toList_iff_getElem?_eq_some.mpr
    hentry
  cases hfind : database.toList.find? select with
  | none => exact absurd hselect (List.find?_eq_none.mp hfind _ hmem)
  | some it =>
      have hfst : it.1 = guid := hkey it (List.find?_some hfind)
      have hit := ExtTreeMap.mem_toList_iff_getElem?_eq_some.mp (List.mem_of_find?_eq_some hfind)
      rw [hfst, hentry] at hit
      rw [Option.some.injEq]
      exact Prod.ext hfst (Option.some.inj hit).symm

theorem participantsByGuid_of_entry {guid : Guid} {info : ParticipantInfo}
    (h : m.participantDatabase[guid]? = some info) :
    (participantsByGuid env m guid).toSimpleParticipantData = ⟨info.name, guid⟩ := by
  have hfind : m.participantDatabase.toList.find? (fun it => it.1 == guid) = some (guid, info) :=
    find?_toList h (by simp) (by simp)
  rw [participantsByGuid, hfind]
  cases guid.isValid <;> rfl

theorem complexInformation_of_entry {guid : Guid} {entry : EndpointInfoData}
    (h : m.endpointDatabase[guid]? = some entry) (hactive : entry.info.active = true)
    {kind : EndpointKind} (hkind : entry.info.kind = kind) :
    setEndpointComplexInformation env m kind guid = fillComplexEndpoint env m entry.info := by
  have hfind : m.endpointDatabase.toList.find? (fun endpoint => endpoint.2.info.active &&
      endpoint.1 == guid && endpoint.2.info.kind == kind) = some (guid, entry) := by
    refine find?_toList h (by simp [hactive, hkind]) ?_
    intro it hit
    simp only [Bool.and_eq_true, beq_iff_eq] at hit
    exact hit.1.2
  rw [setEndpointComplexInformation, hfind]

/-! ## The verbose listings -/

/-- The verbose listing of the participants fills in the records of the simple one. -/
theorem participantsVerbose_toSimple (hkey : ParticipantsKeyed m) :
    (participantsVerbose env m).map ComplexParticipantData.toSimpleParticipantData =
      participants m := by
  rw [participantsVerbose, participants, List.map_map]
  refine List.map_congr_left fun it hit => ?_
  have hentry := ExtTreeMap.mem_toList_iff_getElem?_eq_some.mp (List.mem_filter.mp hit).1
  have hguid : it.2.guid = it.1 := hkey it.1 it.2 hentry
  rw [Function.comp_apply, hguid, participantsByGuid_of_entry env hentry]

theorem participantsVerbose_guids (hkey : ParticipantsKeyed m) :
    (participantsVerbose env m).map (fun data => data.guid) =
      (m.participantDatabase.toList.filter (fun it => it.2.active)).map Prod.fst := by
  have hsimple := congrArg (List.map SimpleParticipantData.guid)
    (participantsVerbose_toSimple env hkey)
  rw [List.map_map, participants, List.map_map] at hsimple
  refine hsimple.trans (List.map_congr_left fun it hit => ?_)
  exact hkey it.1 it.2 (ExtTreeMap.mem_toList_iff_getElem?_eq_some.mp (List.mem_filter.mp hit).1)

/-- The verbose listing of a kind has the filled record of every active entry. -/
theorem endpointsVerbose_eq (hkey : KeyedByGuid m) (kind : EndpointKind) :
    endpointsVerbose env m kind =
      (activeOfKind m kind).map (fun endpoint => fillComplexEndpoint env m endpoint.2.info) := by
  refine List.map_congr_left fun endpoint hendpoint => ?_
  obtain ⟨hentry, hactive, hkind⟩ := mem_activeOfKind.mp hendpoint
  rw [hkey endpoint.1 endpoint.2 hentry]
  exact complexInformation_of_entry env hentry hactive hkind

theorem setEndpointSimpleInformation_guids (hkey : KeyedByGuid m) (kind : EndpointKind) :
    (setEndpointSimpleInformation env m kind).map SimpleEndpointData.guid =
      (activeOfKind m kind).map Prod.fst := by
  rw [setEndpointSimpleInformation, List.map_map]
  refine List.map_congr_left fun endpoint hendpoint => ?_
  obtain ⟨hentry, -, -⟩ := mem_activeOfKind.mp hendpoint
  exact hkey endpoint.1 endpoint.2 hentry

theorem endpointsVerbose_guids (hkey : KeyedByGuid m) (kind : EndpointKind) :
    (endpointsVerbose env m kind).map ComplexEndpointData.guid =
      (activeOfKind m kind).map Prod.fst := by
  rw [endpointsVerbose_eq env hkey, List.map_map]
  refine List.map_congr_left fun endpoint hendpoint => ?_
  obtain ⟨hentry, -, -⟩ := mem_activeOfKind.mp hendpoint
  exact hkey endpoint.1 endpoint.2 hentry

end FastDdsSpy.ModelParser
