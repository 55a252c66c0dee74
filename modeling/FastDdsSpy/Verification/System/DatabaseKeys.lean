import FastDdsSpy.Verification.ModelParser.Lookups
import FastDdsSpy.Verification.System.Departed

/-! # The keys of the databases

Entries are stored under the GUID that they carry and are never removed, so the lookups of
the verbose listings and of the filter commands find what they look for. -/

namespace FastDdsSpy

open Std PastTime ModelParser

variable {τ π δ : Type*}

/-- The record of this participant that an event stores. -/
def Event.participantOf (guid : Guid) : Event τ π → Option ParticipantInfo
  | .newParticipantInfo info => if info.guid = guid then some info else none
  | _ => none

/-- If the event is a discovery record, its GUID is valid. -/
def Event.HasValidGuid : Event τ π → Prop
  | .newParticipantInfo info => info.guid.isValid = true
  | .newEndpointInfo endpointInfo => endpointInfo.info.guid.isValid = true
  | _ => True

theorem Event.guid_of_participantOf {guid : Guid} {e : Event τ π} {info : ParticipantInfo}
    (h : e.participantOf guid = some info) : info.guid = guid := by
  cases e with
  | newParticipantInfo info' =>
      simp only [participantOf] at h
      split_ifs at h with hguid
      exact Option.some.inj h ▸ hguid
  | _ => simp [participantOf] at h

theorem Event.isValid_of_participantOf {guid : Guid} {e : Event τ π} {info : ParticipantInfo}
    (h : e.participantOf guid = some info) (hvalid : e.HasValidGuid) : guid.isValid = true := by
  cases e with
  | newParticipantInfo info' =>
      simp only [participantOf] at h
      split_ifs at h with hguid
      exact hguid ▸ hvalid
  | _ => simp [participantOf] at h

theorem Event.isValid_of_recordOf {guid : Guid} {e : Event τ π} {endpointInfo : EndpointInfoData}
    (h : e.recordOf guid = some endpointInfo) (hvalid : e.HasValidGuid) :
    guid.isValid = true := by
  cases e with
  | newEndpointInfo endpointInfo' =>
      rw [recordOf_newEndpointInfo] at h
      split_ifs at h with hguid
      exact hguid ▸ hvalid
  | _ => simp [recordOf, record] at h

namespace Spy

variable {env : External} {ts : TypeSupport τ π δ} {cfg : Configuration}

/-- The participant database of the tool. -/
abbrev participants (s : Spy τ) : ExtTreeMap Guid ParticipantInfo :=
  s.controller.model.participantDatabase

theorem participant_step (env : External) (ts : TypeSupport τ π δ) (s : Spy τ) (e : Event τ π)
    (guid : Guid) : (step env ts s e).participants[guid]? =
      (e.participantOf guid).or s.participants[guid]? := by
  cases e with
  | newParticipantInfo info =>
      by_cases hg : info.guid = guid
      · simp [participants, step, setModel, SpyModel.newParticipantInfo, Event.participantOf, hg]
      · simp [participants, step, setModel, SpyModel.newParticipantInfo, Event.participantOf,
          ExtTreeMap.getElem?_insert, hg]
  | newEndpointInfo endpointInfo =>
      by_cases hw : endpointInfo.info.isWriter = true <;>
        simp [participants, step, setModel, SpyModel.newEndpointInfo, Event.participantOf, hw]
  | addSchema ty => rfl
  | addData topic data => rfl
  | input command arguments =>
      cases ha : s.filterAction (.input command arguments : Event τ π) with
      | some action =>
          rw [participants, controller_step_of_action env ts ha,
            (Controller.perform_spec env s.controller action).participantDatabase_eq]
          rfl
      | none =>
          obtain ⟨streamer, -, hs⟩ := readInput_of_no_action env ha
          simp only [participants, step]
          rw [hs]
          rfl

/-- The entry of a participant is its last record. -/
theorem participant_exec (env : External) (ts : TypeSupport τ π δ) (cfg : Configuration)
    (es : List (Event τ π)) (guid : Guid) :
    (exec env ts cfg es).participants[guid]? = latest (Event.participantOf guid) es := by
  induction es using List.reverseRecOn with
  | nil => simp [participants, SpyModel.empty]
  | append_singleton es e ih => rw [exec_concat, participant_step, latest_concat, ih]

theorem isSome_endpoint_exec (env : External) (ts : TypeSupport τ π δ) (cfg : Configuration)
    (es : List (Event τ π)) (guid : Guid) :
    (exec env ts cfg es).endpoints[guid]?.isSome = (lastRecord guid es).isSome := by
  have hexec := endpoint_exec env ts cfg es guid
  cases hlast : lastRecord guid es with
  | none =>
      rw [hlast] at hexec
      have hnone : (exec env ts cfg es).endpoints[guid]? = none := hexec
      rw [hnone]
  | some endpointInfo =>
      obtain ⟨active, hentry⟩ := endpoint_of_lastRecord env ts cfg hlast
      rw [hentry]
      rfl

theorem participantsKeyed_exec (es : List (Event τ π)) :
    ParticipantsKeyed (exec env ts cfg es).controller.model := by
  intro guid info hentry
  have hlast := (participant_exec env ts cfg es guid).symm.trans hentry
  obtain ⟨e, -, he⟩ := exists_mem_of_latest hlast
  exact Event.guid_of_participantOf he

/-! ## Keys stay -/

theorem mem_participants_of_prefix {pre es : List (Event τ π)} (hpre : pre <+: es) {guid : Guid}
    (h : guid ∈ (exec env ts cfg pre).participants) :
    guid ∈ (exec env ts cfg es).participants := by
  rw [ExtTreeMap.mem_iff_isSome_getElem?, participant_exec] at h ⊢
  exact isSome_latest_of_prefix hpre h

theorem mem_endpoints_of_prefix {pre es : List (Event τ π)} (hpre : pre <+: es) {guid : Guid}
    (h : guid ∈ (exec env ts cfg pre).endpoints) : guid ∈ (exec env ts cfg es).endpoints := by
  rw [ExtTreeMap.mem_iff_isSome_getElem?, isSome_endpoint_exec] at h ⊢
  exact isSome_latest_of_prefix hpre h

/-! ## Keys are valid -/

section Valid

variable {es : List (Event τ π)} (hvalid : ∀ e ∈ es, e.HasValidGuid) {guid : Guid}
include hvalid

theorem isValid_of_mem_participants (h : guid ∈ (exec env ts cfg es).participants) :
    guid.isValid = true := by
  rw [ExtTreeMap.mem_iff_isSome_getElem?, participant_exec] at h
  obtain ⟨info, hlatest⟩ := Option.isSome_iff_exists.mp h
  obtain ⟨e, hmem, he⟩ := exists_mem_of_latest hlatest
  exact Event.isValid_of_participantOf he (hvalid e hmem)

theorem isValid_of_mem_endpoints (h : guid ∈ (exec env ts cfg es).endpoints) :
    guid.isValid = true := by
  rw [ExtTreeMap.mem_iff_isSome_getElem?, isSome_endpoint_exec] at h
  obtain ⟨endpointInfo, hlatest⟩ := Option.isSome_iff_exists.mp h
  obtain ⟨e, hmem, he⟩ := exists_mem_of_latest hlatest
  exact Event.isValid_of_recordOf he (hvalid e hmem)

end Valid

/-! ## The listings -/

/-- The two listings of the endpoints of a kind: one filled record for each active entry,
with the same GUIDs in the same order, and all of them valid. -/
structure EndpointsComplete (env : External) (m : SpyModel τ StreamCallback)
    (kind : EndpointKind) (simple : List SimpleEndpointData)
    (verbose : List ComplexEndpointData) : Prop where
  filled : verbose =
    (activeOfKind m kind).map (fun endpoint => fillComplexEndpoint env m endpoint.2.info)
  guids_eq : verbose.map ComplexEndpointData.guid = simple.map SimpleEndpointData.guid
  keys_eq : verbose.map ComplexEndpointData.guid = (activeOfKind m kind).map Prod.fst
  valid : ∀ data ∈ verbose, data.guid.isValid = true

/-- What every run of the tool keeps: the keys of both databases are the GUIDs of their
entries and are never lost, and the verbose listings show every active entity. -/
structure DatabasesSound (env : External) (ts : TypeSupport τ π δ) (cfg : Configuration)
    (es : List (Event τ π)) (s : Spy τ) : Prop where
  participants_keyed : ParticipantsKeyed s.controller.model
  endpoints_keyed : KeyedByGuid s.controller.model
  participants_kept : ∀ pre, pre <+: es → ∀ guid ∈ (exec env ts cfg pre).participants,
    guid ∈ s.participants
  endpoints_kept : ∀ pre, pre <+: es → ∀ guid ∈ (exec env ts cfg pre).endpoints,
    guid ∈ s.endpoints
  update_finds : ∀ filters written flag rest,
    Controller.endpointFlags env filters s.endpoints = written ++ flag :: rest →
      flag.1 ∈ Controller.writeBack s.endpoints written
  participants_filled : (participantsVerbose env s.controller.model).map
    ComplexParticipantData.toSimpleParticipantData = ModelParser.participants s.controller.model
  participants_guids : (participantsVerbose env s.controller.model).map (fun data => data.guid) =
    (s.participants.toList.filter (fun it => it.2.active)).map Prod.fst
  participants_valid : ∀ data ∈ participantsVerbose env s.controller.model,
    data.guid.isValid = true
  writers_complete : EndpointsComplete env s.controller.model .writer
    (writers env s.controller.model) (writersVerbose env s.controller.model)
  readers_complete : EndpointsComplete env s.controller.model .reader
    (readers env s.controller.model) (readersVerbose env s.controller.model)

theorem endpointsComplete_exec {es : List (Event τ π)} (hvalid : ∀ e ∈ es, e.HasValidGuid)
    (kind : EndpointKind) :
    EndpointsComplete env (exec env ts cfg es).controller.model kind
      (setEndpointSimpleInformation env (exec env ts cfg es).controller.model kind)
      (endpointsVerbose env (exec env ts cfg es).controller.model kind) := by
  have hkey : KeyedByGuid (exec env ts cfg es).controller.model := keyedByGuid_exec es
  have hguids := endpointsVerbose_guids env hkey kind
  refine ⟨endpointsVerbose_eq env hkey kind, ?_, hguids, fun data hdata => ?_⟩
  · rw [hguids, setEndpointSimpleInformation_guids env hkey]
  · have hmem : data.guid ∈ (activeOfKind (exec env ts cfg es).controller.model kind).map
        Prod.fst := by
      rw [← hguids]
      exact List.mem_map_of_mem hdata
    obtain ⟨endpoint, hendpoint, hguid⟩ := List.mem_map.mp hmem
    obtain ⟨hentry, -, -⟩ := mem_activeOfKind.mp hendpoint
    rw [← hguid]
    exact isValid_of_mem_endpoints hvalid (ExtTreeMap.getElem?_eq_some_iff.mp hentry).fst

/-- After every run whose records have valid GUIDs, the databases are sound and the verbose
listings are complete. -/
theorem databases_sound (env : External) (ts : TypeSupport τ π δ) (cfg : Configuration)
    (es : List (Event τ π)) (hvalid : ∀ e ∈ es, e.HasValidGuid) :
    DatabasesSound env ts cfg es (exec env ts cfg es) := by
  have hkey : ParticipantsKeyed (exec env ts cfg es).controller.model := participantsKeyed_exec es
  have hguids := participantsVerbose_guids env hkey
  refine ⟨hkey, keyedByGuid_exec es, fun pre hpre guid => mem_participants_of_prefix hpre,
    fun pre hpre guid => mem_endpoints_of_prefix hpre,
    fun filters written flag rest => Controller.writeBack_finds env,
    participantsVerbose_toSimple env hkey, hguids, fun data hdata => ?_,
    endpointsComplete_exec hvalid .writer, endpointsComplete_exec hvalid .reader⟩
  have hmem : data.guid ∈ ((exec env ts cfg es).participants.toList.filter
      (fun it => it.2.active)).map Prod.fst := by
    rw [← hguids]
    exact List.mem_map_of_mem hdata
  obtain ⟨it, hit, hguid⟩ := List.mem_map.mp hmem
  have hentry := ExtTreeMap.mem_toList_iff_getElem?_eq_some.mp (List.mem_filter.mp hit).1
  rw [← hguid]
  exact isValid_of_mem_participants hvalid (ExtTreeMap.getElem?_eq_some_iff.mp hentry).fst

theorem databases_sound_clear :
    DatabasesSound literal keyedType (withPartitions ∅)
      [.newParticipantInfo ⟨"spy", ⟨1, 1⟩, true⟩, .newEndpointInfo (writerRecord ⟨1, 2⟩ "A" true),
        .input .filter ["filters", "clear"]]
      (exec literal keyedType (withPartitions ∅)
        [.newParticipantInfo ⟨"spy", ⟨1, 1⟩, true⟩, .newEndpointInfo (writerRecord ⟨1, 2⟩ "A" true),
          .input .filter ["filters", "clear"]]) := by
  apply databases_sound
  simp [Event.HasValidGuid, Guid.isValid, writerRecord]

end Spy

end FastDdsSpy
