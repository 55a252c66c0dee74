import FastDdsSpy.Verification.Discovery.Runs

/-! # What the listings show of the network

The listings against the callbacks of the discovery, without the tool in between. -/

namespace FastDdsSpy.Discovery

open Std PastTime ModelParser

variable {ι θ ο σ τ π δ : Type*} {ds : DiscoverySupport ι θ ο σ} {own : Guid} {env : External}
  {ts : TypeSupport τ π δ} {cfg : Configuration}

/-- The name of a participant in a callback, and whether it is there. -/
def heardOf (guid : Guid) : Step ι θ ο τ π → Option (String × Bool)
  | .onParticipantDiscovery reason info =>
      if info.guid = guid then some (info.participantName, reason.active) else none
  | _ => none

/-- The kind of an endpoint in a callback, and whether it is there. -/
def heardOfEndpoint (guid : Guid) : Step ι θ ο τ π → Option (EndpointKind × Bool)
  | .onReaderDiscovery reason info _ =>
      if info.guid = guid then some (.reader, reason.active) else none
  | .onWriterDiscovery reason info _ =>
      if info.guid = guid then some (.writer, reason.active) else none
  | _ => none

/-! ## Entries -/

def recordAbout (guid : Guid) (info : ParticipantInfo) : Option ParticipantInfo :=
  if info.guid = guid then some info else none

def endpointAbout (guid : Guid) (data : EndpointInfoData) : Option EndpointInfoData :=
  if data.info.guid = guid then some data else none

theorem participantOf_eq (guid : Guid) :
    (Event.participantOf guid : Event τ π → Option ParticipantInfo) =
      fun e => e.participantInfo?.bind (recordAbout guid) := by
  funext e
  cases e <;> rfl

theorem recordOf_eq (guid : Guid) :
    (Event.recordOf guid : Event τ π → Option EndpointInfoData) =
      fun e => e.record.bind (endpointAbout guid) := by
  funext e
  cases e with
  | newEndpointInfo data => exact Event.recordOf_newEndpointInfo guid data
  | _ => rfl

/-- The listener does not report the participant of the spy itself. -/
theorem sentParticipant_about (guid : Guid) (e : Step ι θ ο τ π) :
    (sentParticipant ds own e).bind (recordAbout guid) =
      if guid.guidPrefix = own.guidPrefix then none
      else (heardOf guid e).map (fun heard => ⟨heard.1, guid, heard.2⟩) := by
  cases e with
  | onParticipantDiscovery reason info =>
      simp only [sentParticipant, sentParticipantInfo, heardOf, ds.comeFromSameParticipant_eq,
        beq_iff_eq]
      by_cases hguid : info.guid = guid
      · subst hguid
        by_cases hown : info.guid.guidPrefix = own.guidPrefix <;> simp [hown, recordAbout]
      · by_cases hown : info.guid.guidPrefix = own.guidPrefix <;> simp [hown, hguid, recordAbout]
  | _ => simp [sentParticipant, heardOf]

theorem sentEndpointInfo_about (guid : Guid) (kind : EndpointKind) (active : Bool)
    (info : EndpointDiscoveryInfo ι θ) (registry : TypeObjectRegistry θ ο) :
    ((sentEndpointInfo ds own kind active info registry).bind (endpointAbout guid)).map
        (fun data => (data.info.kind, data.info.active)) =
      if guid.guidPrefix = own.guidPrefix then none
      else if info.guid = guid then some (kind, active) else none := by
  simp only [sentEndpointInfo, ds.comeFromSameParticipant_eq, beq_iff_eq]
  by_cases hguid : info.guid = guid
  · subst hguid
    by_cases hown : info.guid.guidPrefix = own.guidPrefix <;>
      simp [hown, endpointAbout, ds.createEndpointFromInfo_guid, ds.createEndpointFromInfo_kind]
  · by_cases hown : info.guid.guidPrefix = own.guidPrefix <;>
      simp [hown, hguid, endpointAbout, ds.createEndpointFromInfo_guid]

theorem sentEndpoint_about (guid : Guid) (e : Step ι θ ο τ π) :
    ((sentEndpoint ds own e).bind (endpointAbout guid)).map
        (fun data => (data.info.kind, data.info.active)) =
      if guid.guidPrefix = own.guidPrefix then none else heardOfEndpoint guid e := by
  cases e with
  | onReaderDiscovery reason info registry => exact sentEndpointInfo_about guid _ _ info registry
  | onWriterDiscovery reason info registry => exact sentEndpointInfo_about guid _ _ info registry
  | _ => simp [sentEndpoint, heardOfEndpoint]

theorem latest_ite {ε β : Type*} (p : Prop) [Decidable p] (f : ε → Option β) (es : List ε) :
    latest (fun e => if p then none else f e) es = if p then none else latest f es := by
  split
  · exact latest_none es
  · rfl

/-- The entry of a participant, by the callbacks whose records have been carried. -/
theorem participant_entry {es pre : List (Step ι θ ο τ π)}
    (hpre : pre.filterMap (sentParticipant ds own) =
      (trace ds own env ts cfg es).filterMap Event.participantInfo?) (guid : Guid) :
    (exec ds own env ts cfg es).spy.participants[guid]? =
      if guid.guidPrefix = own.guidPrefix then none
      else (latest (heardOf guid) pre).map (fun heard => ⟨heard.1, guid, heard.2⟩) := by
  rw [spy_exec, Spy.participant_exec, participantOf_eq, ← latest_filterMap, ← hpre,
    latest_filterMap, funext (sentParticipant_about guid), latest_ite, latest_map]

/-- Without filter commands the entry of an endpoint is its last record. -/
theorem endpoint_exec_of_no_filter {es : List (Event τ π)}
    (h : ∀ arguments, Event.input .filter arguments ∉ es) (guid : Guid) :
    (Spy.exec env ts cfg es).endpoints[guid]? = Spy.lastRecord guid es := by
  induction es using List.reverseRecOn with
  | nil => simp [Spy.lastRecord, Spy.endpoints, SpyModel.empty]
  | append_singleton es e ih =>
      have hes : ∀ arguments, Event.input .filter arguments ∉ es :=
        fun arguments hmem => h arguments (List.mem_append_left _ hmem)
      have hnone : (Spy.exec env ts cfg es).filterAction e = none := by
        rw [Option.eq_none_iff_forall_ne_some]
        intro action haction
        obtain ⟨arguments, rfl, -, -⟩ := Spy.filterAction_eq_some_iff.mp haction
        exact h arguments (List.mem_append_right _ (List.mem_singleton_self _))
      rw [Spy.lastRecord_concat, Spy.exec_concat, Spy.endpoint_step, hnone, ih hes]

theorem no_filter_trace {es : List (Step ι θ ο τ π)}
    (h : ∀ arguments, Step.input .filter arguments ∉ es) (arguments : List String) :
    Event.input .filter arguments ∉ trace ds own env ts cfg es := by
  intro hmem
  have hother : Event.input .filter arguments ∈
      (trace ds own env ts cfg es).filterMap Event.other? := by
    rw [List.mem_filterMap]
    exact ⟨_, hmem, rfl⟩
  rw [trace_others] at hother
  obtain ⟨e, he, htool⟩ := List.mem_filterMap.mp hother
  cases e with
  | input command arguments' =>
      obtain ⟨rfl, rfl⟩ := Event.input.inj (Option.some.inj htool)
      exact h arguments' he
  | _ => simp [toolEvent] at htool

theorem endpoint_entry {es pre : List (Step ι θ ο τ π)}
    (h : ∀ arguments, Step.input .filter arguments ∉ es)
    (hpre : pre.filterMap (sentEndpoint ds own) =
      (trace ds own env ts cfg es).filterMap Event.record) (guid : Guid) :
    ((exec ds own env ts cfg es).spy.endpoints[guid]?).map
        (fun data : EndpointInfoData => (data.info.kind, data.info.active)) =
      if guid.guidPrefix = own.guidPrefix then none else latest (heardOfEndpoint guid) pre := by
  rw [spy_exec, endpoint_exec_of_no_filter (no_filter_trace h), Spy.lastRecord, recordOf_eq,
    ← latest_filterMap, ← hpre, latest_filterMap, ← latest_map,
    funext (sentEndpoint_about guid), latest_ite]

/-! ## Listings -/

/-- The participants listing is that of the network after these steps: it shows, once each, the
participants other than the spy whose last callback said that they are there. -/
structure ParticipantsShown (own : Guid) (pre : List (Step ι θ ο τ π)) (s : Spy τ) : Prop where
  mem_iff : ∀ name guid, (⟨name, guid⟩ : SimpleParticipantData) ∈
    ModelParser.participants s.controller.model ↔
      guid.guidPrefix ≠ own.guidPrefix ∧ latest (heardOf guid) pre = some (name, true)
  nodup : ((ModelParser.participants s.controller.model).map SimpleParticipantData.guid).Nodup

/-- The same for the listings of readers and of writers, by their GUIDs. -/
structure EndpointsShown (env : External) (own : Guid) (pre : List (Step ι θ ο τ π)) (s : Spy τ) :
    Prop where
  writers_iff : ∀ guid, guid ∈ (writers env s.controller.model).map SimpleEndpointData.guid ↔
    guid.guidPrefix ≠ own.guidPrefix ∧ latest (heardOfEndpoint guid) pre = some (.writer, true)
  readers_iff : ∀ guid, guid ∈ (readers env s.controller.model).map SimpleEndpointData.guid ↔
    guid.guidPrefix ≠ own.guidPrefix ∧ latest (heardOfEndpoint guid) pre = some (.reader, true)

section Keyed

variable {κ : Type*} {m : SpyModel τ κ}

theorem mem_participants_iff (hkey : ParticipantsKeyed m) (name : String) (guid : Guid) :
    (⟨name, guid⟩ : SimpleParticipantData) ∈ ModelParser.participants m ↔
      m.participantDatabase[guid]? = some ⟨name, guid, true⟩ := by
  simp only [ModelParser.participants, List.mem_map, List.mem_filter]
  constructor
  · intro h
    obtain ⟨it, ⟨hmem, hactive⟩, heq⟩ := h
    have hentry := ExtTreeMap.mem_toList_iff_getElem?_eq_some.mp hmem
    obtain ⟨hname, hguid⟩ := SimpleParticipantData.mk.inj heq
    rw [← hkey it.1 it.2 hentry, hguid] at hentry
    rw [hentry, ← hname, ← hguid, ← hactive]
  · intro h
    exact ⟨(guid, ⟨name, guid, true⟩), ⟨ExtTreeMap.mem_toList_iff_getElem?_eq_some.mpr h, rfl⟩, rfl⟩

theorem nodup_participants (hkey : ParticipantsKeyed m) :
    ((ModelParser.participants m).map SimpleParticipantData.guid).Nodup := by
  have hfst : (ModelParser.participants m).map SimpleParticipantData.guid =
      (m.participantDatabase.toList.filter (fun it => it.2.active)).map Prod.fst := by
    rw [ModelParser.participants, List.map_map]
    refine List.map_congr_left fun it hit => ?_
    exact hkey it.1 it.2
      (ExtTreeMap.mem_toList_iff_getElem?_eq_some.mp (List.mem_filter.mp hit).1)
  rw [hfst]
  apply List.Nodup.sublist (List.filter_sublist.map _)
  rw [ExtTreeMap.map_fst_toList_eq_keys]
  exact ExtTreeMap.nodup_keys

theorem mem_listing_iff (hkey : KeyedByGuid m) (kind : EndpointKind) (guid : Guid) :
    guid ∈ (setEndpointSimpleInformation env m kind).map SimpleEndpointData.guid ↔
      (m.endpointDatabase[guid]?).map
        (fun data : EndpointInfoData => (data.info.kind, data.info.active)) =
      some (kind, true) := by
  rw [setEndpointSimpleInformation_guids env hkey, List.mem_map]
  constructor
  · intro h
    obtain ⟨endpoint, hmem, rfl⟩ := h
    obtain ⟨hentry, hactive, hkind⟩ := mem_activeOfKind.mp hmem
    rw [hentry, Option.map_some, hactive, hkind]
  · intro h
    obtain ⟨data, hentry, heq⟩ := Option.map_eq_some_iff.mp h
    obtain ⟨hkind, hactive⟩ := Prod.mk.inj heq
    exact ⟨(guid, data), mem_activeOfKind.mpr ⟨hentry, hactive, hkind⟩, rfl⟩

end Keyed

theorem participantsShown_of_carried {es pre : List (Step ι θ ο τ π)}
    (hpre : pre.filterMap (sentParticipant ds own) =
      (trace ds own env ts cfg es).filterMap Event.participantInfo?) :
    ParticipantsShown own pre (exec ds own env ts cfg es).spy := by
  have hkey : ParticipantsKeyed (exec ds own env ts cfg es).spy.controller.model := by
    rw [spy_exec]
    exact Spy.participantsKeyed_exec _
  refine ⟨fun name guid => ?_, nodup_participants hkey⟩
  rw [mem_participants_iff hkey]
  have hentry := participant_entry hpre guid
  rw [Spy.participants] at hentry
  rw [hentry]
  by_cases hown : guid.guidPrefix = own.guidPrefix
  · simp [hown]
  · simp only [hown, if_false, not_false_eq_true, true_and, ne_eq]
    cases latest (heardOf guid) pre with
    | none => simp
    | some heard => simp [Prod.ext_iff]

theorem endpointsShown_of_carried {es pre : List (Step ι θ ο τ π)}
    (h : ∀ arguments, Step.input .filter arguments ∉ es)
    (hpre : pre.filterMap (sentEndpoint ds own) =
      (trace ds own env ts cfg es).filterMap Event.record) :
    EndpointsShown env own pre (exec ds own env ts cfg es).spy := by
  have hkey : KeyedByGuid (exec ds own env ts cfg es).spy.controller.model := by
    rw [spy_exec]
    exact Spy.keyedByGuid_exec _
  have hlisting : ∀ kind guid, guid ∈ (setEndpointSimpleInformation env
      (exec ds own env ts cfg es).spy.controller.model kind).map SimpleEndpointData.guid ↔
      guid.guidPrefix ≠ own.guidPrefix ∧ latest (heardOfEndpoint guid) pre = some (kind, true) := by
    intro kind guid
    have hentry := endpoint_entry h hpre guid
    rw [Spy.endpoints] at hentry
    rw [mem_listing_iff hkey, hentry]
    by_cases hown : guid.guidPrefix = own.guidPrefix <;> simp [hown]
  exact ⟨hlisting .writer, hlisting .reader⟩

/-- In every interleaving the participants listing is that of an earlier moment, and the present
one when no participant record is under way. The spy never lists itself. -/
theorem participants_past (ds : DiscoverySupport ι θ ο σ) (own : Guid) (env : External)
    (ts : TypeSupport τ π δ) (cfg : Configuration) (es : List (Step ι θ ο τ π)) :
    ∃ pre, pre <+: es ∧ (pendingParticipants ds (exec ds own env ts cfg es) = [] → pre = es) ∧
      ParticipantsShown own pre (exec ds own env ts cfg es).spy := by
  obtain ⟨pre, hpre, hsent, hpresent⟩ := exists_prefix_sent
    (carried_participants ds own env ts cfg es)
  exact ⟨pre, hpre, hpresent, participantsShown_of_carried hsent⟩

/-- The same for the listings of endpoints, where no filter command overwrites the flags. -/
theorem endpoints_past (ds : DiscoverySupport ι θ ο σ) (own : Guid) (env : External)
    (ts : TypeSupport τ π δ) (cfg : Configuration) {es : List (Step ι θ ο τ π)}
    (h : ∀ arguments, Step.input .filter arguments ∉ es) :
    ∃ pre, pre <+: es ∧ (pendingEndpoints ds (exec ds own env ts cfg es) = [] → pre = es) ∧
      EndpointsShown env own pre (exec ds own env ts cfg es).spy := by
  obtain ⟨pre, hpre, hsent, hpresent⟩ := exists_prefix_sent
    (carried_endpoints ds own env ts cfg es)
  exact ⟨pre, hpre, hpresent, endpointsShown_of_carried h hsent⟩

/-- Lists as internal readers, and endpoints on one topic. -/
def plainSupport : DiscoverySupport Unit Unit Unit (List RoutingData) where
  comeFromSameParticipant a b := a.guidPrefix == b.guidPrefix
  createEndpointFromInfo kind info := ⟨info.guid, kind, keyedTopic, true, ∅⟩
  idlSerialize _ := "@extensibility(APPENDABLE) struct Keyed \x7b @key long id; \x7d;"
  internalReader := .list RoutingData
  comeFromSameParticipant_eq _ _ := rfl
  createEndpointFromInfo_guid _ _ := rfl
  createEndpointFromInfo_kind _ _ := rfl

/-- A writer that arrives and whose record is carried, and one that leaves meanwhile. -/
def arrival : List (Step Unit Unit Unit Unit Unit) :=
  [.onWriterDiscovery .discoveredWriter ⟨⟨2, 3⟩, some (), ()⟩ some,
    .onWriterDiscovery .removedWriter ⟨⟨2, 3⟩, none, ()⟩ some,
    .route internalTopicTypeEndpointInfo]

theorem endpoints_past_arrival : ∃ pre, pre <+: arrival ∧
    (pendingEndpoints plainSupport (exec plainSupport ⟨1, 1⟩ literal keyedType (withPartitions ∅)
      arrival) = [] → pre = arrival) ∧
    EndpointsShown literal ⟨1, 1⟩ pre (exec plainSupport ⟨1, 1⟩ literal keyedType
      (withPartitions ∅) arrival).spy := by
  apply endpoints_past
  simp [arrival]

/-! ## After the pipe has caught up -/

end FastDdsSpy.Discovery
