import FastDdsSpy.Verification.System.DatabaseKeys

/-! # Queries by GUID and listings

A GUID is known to the query of a kind when the record that it returns has a valid GUID.
The endpoint queries look at the flag and the kind as the listings do; the participant
query looks at the key alone. -/

namespace FastDdsSpy

open Std PastTime

variable {τ π δ : Type*}

namespace ModelParser

variable {κ : Type*} (env : External) {m : SpyModel τ κ} {guid : Guid}

theorem mem_participants_guids (hkey : ParticipantsKeyed m) :
    guid ∈ (participants m).map (fun data => data.guid) ↔
      ∃ info, m.participantDatabase[guid]? = some info ∧ info.active = true := by
  simp only [participants, List.map_map, List.mem_map, List.mem_filter]
  constructor
  · intro h
    obtain ⟨it, ⟨hmem, hactive⟩, rfl⟩ := h
    have hentry := ExtTreeMap.mem_toList_iff_getElem?_eq_some.mp hmem
    have hguid : it.2.guid = it.1 := hkey it.1 it.2 hentry
    refine ⟨it.2, ?_, hactive⟩
    rw [Function.comp_apply, hguid, hentry]
  · intro h
    obtain ⟨info, hentry, hactive⟩ := h
    refine ⟨(guid, info), ⟨?_, hactive⟩, hkey guid info hentry⟩
    exact ExtTreeMap.mem_toList_iff_getElem?_eq_some.mpr hentry

/-- The query knows every participant that has an entry, active or not. -/
theorem participantsByGuid_isValid (hvalid : guid.isValid = true) :
    (participantsByGuid env m guid).guid.isValid = true ↔ guid ∈ m.participantDatabase := by
  rw [ExtTreeMap.mem_iff_isSome_getElem?]
  cases hentry : m.participantDatabase[guid]? with
  | some info =>
      rw [participantsByGuid_of_entry env hentry]
      exact iff_of_true hvalid rfl
  | none =>
      have hfind : m.participantDatabase.toList.find? (fun it => it.1 == guid) = none := by
        rw [List.find?_eq_none]
        intro it hit heq
        have hget := ExtTreeMap.mem_toList_iff_getElem?_eq_some.mp hit
        rw [beq_iff_eq.mp heq, hentry] at hget
        simp at hget
      have hblank : ¬ (default : Guid).isValid = true := by decide
      rw [participantsByGuid, hfind]
      exact iff_of_false hblank (by simp)

/-- The query for an endpoint of a kind knows those that the listing of the kind shows. -/
theorem complexInformation_isValid (hkey : KeyedByGuid m) (hvalid : guid.isValid = true)
    (kind : EndpointKind) :
    (setEndpointComplexInformation env m kind guid).guid.isValid = true ↔
      guid ∈ (setEndpointSimpleInformation env m kind).map SimpleEndpointData.guid := by
  rw [setEndpointSimpleInformation_guids env hkey]
  constructor
  · intro h
    rw [setEndpointComplexInformation] at h
    split at h
    · exact absurd h (by decide)
    · next endpoint hfind =>
        have hselect := List.find?_some hfind
        simp only [Bool.and_eq_true, beq_iff_eq] at hselect
        obtain ⟨⟨hactive, rfl⟩, hkind⟩ := hselect
        have hget := ExtTreeMap.mem_toList_iff_getElem?_eq_some.mp (List.mem_of_find?_eq_some hfind)
        exact List.mem_map_of_mem (mem_activeOfKind.mpr ⟨hget, hactive, hkind⟩)
  · intro h
    obtain ⟨endpoint, hendpoint, rfl⟩ := List.mem_map.mp h
    obtain ⟨hentry, hactive, hkind⟩ := mem_activeOfKind.mp hendpoint
    rw [complexInformation_of_entry env hentry hactive hkind]
    have hguid : endpoint.2.info.guid = endpoint.1 := hkey endpoint.1 endpoint.2 hentry
    rw [fillComplexEndpoint, hguid]
    exact hvalid

end ModelParser

namespace Controller

open ModelParser

variable (env : External)

def unknownText (argument entityName : String) : String :=
  argument ++ " does not match with any known " ++ entityName ++ "."

/-- A command for one entity says that the GUID is not known when what the query returns
has no valid GUID. -/
theorem ddsEntityCommand_unknown_iff {α : Type*} {command argument : String}
    {options : List String} {simple verbose : Yaml} {specific : Guid → α} {dataGuid : α → Guid}
    {toYaml : α → Yaml} {entityName : String} (hverbose : verboseArgument argument = false)
    (hvalid : (env.guidOfString argument).isValid = true) :
    ddsEntityCommand env (command :: argument :: options) simple verbose specific dataGuid toYaml
        entityName = [.error (unknownText argument entityName)] ↔
      ¬ (dataGuid (specific (env.guidOfString argument))).isValid = true := by
  cases hknown : (dataGuid (specific (env.guidOfString argument))).isValid <;>
    simp [ddsEntityCommand, hverbose, hvalid, hknown, unknownText]

/-! ## Runs -/

/-- The three queries know exactly the valid GUIDs that their listings show, and the three
commands say of the other ones that they are not known. -/
structure QueriesAgree (env : External) (c : Controller τ) : Prop where
  participants_iff : ∀ guid : Guid, guid.isValid = true →
    ((ModelParser.participantsByGuid env c.model guid).guid.isValid = true ↔
      guid ∈ (ModelParser.participants c.model).map (fun data => data.guid))
  writers_iff : ∀ guid : Guid, guid.isValid = true →
    ((ModelParser.writersByGuid env c.model guid).guid.isValid = true ↔
      guid ∈ (ModelParser.writers env c.model).map SimpleEndpointData.guid)
  readers_iff : ∀ guid : Guid, guid.isValid = true →
    ((ModelParser.readersByGuid env c.model guid).guid.isValid = true ↔
      guid ∈ (ModelParser.readers env c.model).map SimpleEndpointData.guid)
  commands_iff : ∀ (command argument : String) (options : List String),
    verboseArgument argument = false → (env.guidOfString argument).isValid = true →
      (c.participantsCommand env (command :: argument :: options) =
          [.error (unknownText argument "participant")] ↔
        env.guidOfString argument ∉
          (ModelParser.participants c.model).map (fun data => data.guid)) ∧
      (c.writersCommand env (command :: argument :: options) =
          [.error (unknownText argument "writer")] ↔
        env.guidOfString argument ∉
          (ModelParser.writers env c.model).map SimpleEndpointData.guid) ∧
      (c.readersCommand env (command :: argument :: options) =
          [.error (unknownText argument "reader")] ↔
        env.guidOfString argument ∉
          (ModelParser.readers env c.model).map SimpleEndpointData.guid)

/-- The queries agree when no participant with a valid GUID has an inactive entry. -/
theorem queriesAgree_iff {c : Controller τ} (hparticipants : ParticipantsKeyed c.model)
    (hendpoints : KeyedByGuid c.model) :
    QueriesAgree env c ↔ ∀ (guid : Guid) (info : ParticipantInfo), guid.isValid = true →
      c.model.participantDatabase[guid]? = some info → info.active = true := by
  constructor
  · intro h guid info hvalid hentry
    have hknown : guid ∈ c.model.participantDatabase :=
      (ExtTreeMap.getElem?_eq_some_iff.mp hentry).fst
    have hlisted := (h.participants_iff guid hvalid).mp
      ((participantsByGuid_isValid env hvalid).mpr hknown)
    obtain ⟨info', hentry', hactive⟩ := (mem_participants_guids hparticipants).mp hlisted
    rw [hentry] at hentry'
    exact Option.some.inj hentry' ▸ hactive
  · intro h
    have hp : ∀ guid : Guid, guid.isValid = true →
        ((ModelParser.participantsByGuid env c.model guid).guid.isValid = true ↔
          guid ∈ (ModelParser.participants c.model).map (fun data => data.guid)) := by
      intro guid hvalid
      rw [participantsByGuid_isValid env hvalid, mem_participants_guids hparticipants,
        ExtTreeMap.mem_iff_isSome_getElem?, Option.isSome_iff_exists]
      exact exists_congr fun info =>
        ⟨fun hentry => ⟨hentry, h guid info hvalid hentry⟩, fun hentry => hentry.1⟩
    have hw := fun (guid : Guid) (hvalid : guid.isValid = true) =>
      complexInformation_isValid env hendpoints hvalid .writer
    have hr := fun (guid : Guid) (hvalid : guid.isValid = true) =>
      complexInformation_isValid env hendpoints hvalid .reader
    refine ⟨hp, hw, hr, fun command argument options hverbose hvalid => ⟨?_, ?_, ?_⟩⟩
    · exact (ddsEntityCommand_unknown_iff env hverbose hvalid).trans (not_congr (hp _ hvalid))
    · exact (ddsEntityCommand_unknown_iff env hverbose hvalid).trans (not_congr (hw _ hvalid))
    · exact (ddsEntityCommand_unknown_iff env hverbose hvalid).trans (not_congr (hr _ hvalid))

end Controller

namespace Spy

open Controller ModelParser

variable {env : External} {ts : TypeSupport τ π δ} {cfg : Configuration}

/-- If the event is the record of a participant with a valid GUID, it is not a removal. -/
def KeepsParticipant (e : Event τ π) : Prop :=
  ∀ info, e = .newParticipantInfo info → info.guid.isValid = true → info.active = true

theorem queriesAgree_exec_iff (es : List (Event τ π)) :
    QueriesAgree env (exec env ts cfg es).controller ↔
      ∀ guid info, guid.isValid = true →
        latest (Event.participantOf guid) es = some info → info.active = true := by
  rw [queriesAgree_iff env (participantsKeyed_exec es) (keyedByGuid_exec es)]
  refine forall₃_congr fun guid info hvalid => ?_
  rw [← participant_exec env ts cfg es guid]

/-- The queries by GUID agree with the listings throughout a run if and only if the run has
no removal of a participant. -/
theorem queriesAgree_iff_keepsParticipant (env : External) (ts : TypeSupport τ π δ)
    (cfg : Configuration) (es : List (Event τ π)) :
    Always (fun pre => QueriesAgree env (exec env ts cfg pre).controller) es ↔
      EachStep (fun _ e => KeepsParticipant e) es := by
  refine always_iff_eachStep ?_ (fun pre e hpre => ?_) es
  · rw [queriesAgree_exec_iff]
    simp
  · rw [queriesAgree_exec_iff] at hpre ⊢
    simp only [latest_concat]
    constructor
    · intro h info he hvalid
      exact h info.guid info hvalid (by simp [he, Event.participantOf])
    · intro h guid info hvalid hlatest
      cases hof : e.participantOf guid with
      | none => exact hpre guid info hvalid (by simpa [hof] using hlatest)
      | some info' =>
          obtain rfl : info' = info := by simpa [hof] using hlatest
          have hguid := Event.guid_of_participantOf hof
          cases e with
          | newParticipantInfo info'' =>
              simp only [Event.participantOf] at hof
              split_ifs at hof
              obtain rfl := Option.some.inj hof
              exact h _ rfl (hguid ▸ hvalid)
          | _ => simp [Event.participantOf] at hof

/-- A participant arrives and leaves: the listing is empty, and the query still knows it. -/
theorem not_queriesAgree_removal :
    ModelParser.participants (exec literal keyedType (withPartitions ∅)
        [.newParticipantInfo ⟨"spy", ⟨1, 1⟩, true⟩,
          .newParticipantInfo ⟨"spy", ⟨1, 1⟩, false⟩]).controller.model = [] ∧
      (participantsByGuid literal (exec literal keyedType (withPartitions ∅)
        [.newParticipantInfo ⟨"spy", ⟨1, 1⟩, true⟩,
          .newParticipantInfo ⟨"spy", ⟨1, 1⟩, false⟩]).controller.model ⟨1, 1⟩).guid = ⟨1, 1⟩ ∧
      ¬ Always (fun pre => QueriesAgree literal
          (exec literal keyedType (withPartitions ∅) pre).controller)
        [.newParticipantInfo ⟨"spy", ⟨1, 1⟩, true⟩,
          .newParticipantInfo ⟨"spy", ⟨1, 1⟩, false⟩] := by
  refine ⟨by decide, by decide, fun h => ?_⟩
  have hagree := (queriesAgree_exec_iff _).mp h.last
  exact Bool.false_ne_true (hagree ⟨1, 1⟩ ⟨"spy", ⟨1, 1⟩, false⟩ (by decide) rfl)

end Spy

end FastDdsSpy
