import FastDdsSpy.Model.Discovery
import FastDdsSpy.Verification.System.DatabaseKeys

/-! # Steps of discovery

What a step puts into the internal readers and what it hands over to the tool. No record is
lost, repeated or overtaken by a later one of its topic, and none reaches the wrong writer. -/

namespace FastDdsSpy

open PastTime

variable {ι θ ο σ τ π δ : Type*}

def RoutingData.participantInfo? : RoutingData → Option ParticipantInfo
  | .participantInfo info => some info
  | .endpointInfo _ => none

def RoutingData.endpointInfo? : RoutingData → Option EndpointInfoData
  | .participantInfo _ => none
  | .endpointInfo data => some data

/-- The participant record that an event stores. -/
def Event.participantInfo? : Event τ π → Option ParticipantInfo
  | .newParticipantInfo info => some info
  | _ => none

/-- The event, unless it is a discovery record. -/
def Event.other? : Event τ π → Option (Event τ π)
  | .newParticipantInfo _ | .newEndpointInfo _ => none
  | e => some e

namespace Discovery

/-! ## What a step sends and emits -/

section Definitions

variable (ds : DiscoverySupport ι θ ο σ) (own : Guid)

def sentParticipantInfo (reason : ParticipantDiscoveryStatus)
    (info : ParticipantBuiltinTopicData) : Option ParticipantInfo :=
  if ds.comeFromSameParticipant info.guid own then none
  else some ⟨info.participantName, info.guid, reason.active⟩

/-- The participant record that the listener makes of a callback. -/
def sentParticipant : Step ι θ ο τ π → Option ParticipantInfo
  | .onParticipantDiscovery reason info => sentParticipantInfo ds own reason info
  | _ => none

def sentEndpointInfo (kind : EndpointKind) (active : Bool) (info : EndpointDiscoveryInfo ι θ)
    (registry : TypeObjectRegistry θ ο) : Option EndpointInfoData :=
  if ds.comeFromSameParticipant info.guid own then none
  else some ⟨{ ds.createEndpointFromInfo kind info with active := active },
    getTypeIdl ds registry info⟩

/-- The endpoint record that the listener makes of a callback. -/
def sentEndpoint : Step ι θ ο τ π → Option EndpointInfoData
  | .onReaderDiscovery reason info registry =>
      sentEndpointInfo ds own .reader reason.active info registry
  | .onWriterDiscovery reason info registry =>
      sentEndpointInfo ds own .writer reason.active info registry
  | _ => none

/-- The event of a step that is not part of discovery. -/
def toolEvent : Step ι θ ο τ π → Option (Event τ π)
  | .addSchema dynamicType => some (.addSchema dynamicType)
  | .addData topic data => some (.addData topic data)
  | .input command arguments => some (.input command arguments)
  | _ => none

/-- The event that a record causes at a writer. -/
def writtenEvent (data : RoutingData) : TopicRole → Option (Event τ π)
  | .participants => data.participantInfo?.map .newParticipantInfo
  | .endpoints => data.endpointInfo?.map .newEndpointInfo
  | .parent => none

/-- The event of the tool that a step causes. -/
def emits (s : DiscoveryState σ τ) : Step ι θ ο τ π → Option (Event τ π)
  | .route discriminator => (takeData ds s (createReader discriminator)).bind
      fun taken => writtenEvent taken.1 (createWriter discriminator)
  | e => toolEvent e

/-- The participant records under way. -/
def pendingParticipants (s : DiscoveryState σ τ) : List ParticipantInfo :=
  (ds.internalReader.content s.participantsReader).filterMap RoutingData.participantInfo?

/-- The endpoint records under way. -/
def pendingEndpoints (s : DiscoveryState σ τ) : List EndpointInfoData :=
  (ds.internalReader.content s.endpointsReader).filterMap RoutingData.endpointInfo?

end Definitions

variable {ds : DiscoverySupport ι θ ο σ} {own : Guid} {env : External} {ts : TypeSupport τ π δ}
  {s : DiscoveryState σ τ}

/-- All that a step of the pipe can do. -/
inductive Routes (ds : DiscoverySupport ι θ ο σ) (env : External) (ts : TypeSupport τ π δ)
    (s : DiscoveryState σ τ) : Option (Event τ π) → DiscoveryState σ τ → Prop
  | idle : Routes ds env ts s none s
  | participant {info q} (h : ds.internalReader.content s.participantsReader =
      .participantInfo info :: ds.internalReader.content q) :
      Routes ds env ts s (some (.newParticipantInfo info))
        { s with participantsReader := q, spy := s.spy.step env ts (.newParticipantInfo info) }
  | endpoint {data q} (h : ds.internalReader.content s.endpointsReader =
      .endpointInfo data :: ds.internalReader.content q) :
      Routes ds env ts s (some (.newEndpointInfo data))
        { s with endpointsReader := q, spy := s.spy.step env ts (.newEndpointInfo data) }
  | badParticipant {data q} (h : ds.internalReader.content s.participantsReader =
      .endpointInfo data :: ds.internalReader.content q) :
      Routes ds env ts s none { s with participantsReader := q, badCast := true }
  | badEndpoint {info q} (h : ds.internalReader.content s.endpointsReader =
      .participantInfo info :: ds.internalReader.content q) :
      Routes ds env ts s none { s with endpointsReader := q, badCast := true }

theorem takeData_participants {data : RoutingData} {s' : DiscoveryState σ τ}
    (h : takeData ds s .participants = some (data, s')) : ∃ q,
      ds.internalReader.content s.participantsReader = data :: ds.internalReader.content q ∧
      s' = { s with participantsReader := q } := by
  obtain ⟨⟨d, q⟩, htake, heq⟩ := Option.map_eq_some_iff.mp h
  cases heq
  exact ⟨q, ds.internalReader.content_of_take_eq_some htake, rfl⟩

theorem takeData_endpoints {data : RoutingData} {s' : DiscoveryState σ τ}
    (h : takeData ds s .endpoints = some (data, s')) : ∃ q,
      ds.internalReader.content s.endpointsReader = data :: ds.internalReader.content q ∧
      s' = { s with endpointsReader := q } := by
  obtain ⟨⟨d, q⟩, htake, heq⟩ := Option.map_eq_some_iff.mp h
  cases heq
  exact ⟨q, ds.internalReader.content_of_take_eq_some htake, rfl⟩

/-- Reader and writer of a topic are of one kind. -/
theorem createWriter_eq (discriminator : String) :
    createWriter discriminator = createReader discriminator := rfl

theorem emits_route (discriminator : String) :
    emits ds s (.route discriminator : Step ι θ ο τ π) =
      (takeData ds s (createReader discriminator)).bind
        fun taken => writtenEvent taken.1 (createWriter discriminator) := rfl

theorem route_routes (ds : DiscoverySupport ι θ ο σ) (env : External) (ts : TypeSupport τ π δ)
    (s : DiscoveryState σ τ) (discriminator : String) :
    Routes ds env ts s (emits ds s (.route discriminator : Step ι θ ο τ π))
      (route ds env ts s discriminator) := by
  rw [emits_route, route, createWriter_eq]
  generalize createReader discriminator = role
  cases htake : takeData ds s role with
  | none => exact .idle
  | some taken =>
      obtain ⟨data, s'⟩ := taken
      cases role with
      | participants =>
          obtain ⟨q, hq, rfl⟩ := takeData_participants htake
          cases data with
          | participantInfo info => exact .participant hq
          | endpointInfo data => exact .badParticipant hq
      | endpoints =>
          obtain ⟨q, hq, rfl⟩ := takeData_endpoints htake
          cases data with
          | participantInfo info => exact .badEndpoint hq
          | endpointInfo data => exact .endpoint hq
      | parent => simp [takeData] at htake

/-- What a callback of the listener adds to a reader. -/
theorem onEndpointDiscovery_eq (kind : EndpointKind) (active : Bool)
    (info : EndpointDiscoveryInfo ι θ) (registry : TypeObjectRegistry θ ο) :
    onEndpointDiscovery ds own kind active s info registry =
      (sentEndpointInfo ds own kind active info registry).elim s (fun data =>
        { s with endpointsReader :=
          ds.internalReader.push s.endpointsReader (.endpointInfo data) }) := by
  unfold onEndpointDiscovery sentEndpointInfo
  split <;> rfl

theorem onParticipantDiscovery_eq (reason : ParticipantDiscoveryStatus)
    (info : ParticipantBuiltinTopicData) :
    onParticipantDiscovery ds own s reason info =
      (sentParticipantInfo ds own reason info).elim s (fun data =>
        { s with participantsReader :=
          ds.internalReader.push s.participantsReader (.participantInfo data) }) := by
  unfold onParticipantDiscovery sentParticipantInfo
  split <;> rfl

/-! ## The tool -/

theorem spy_onEndpointDiscovery (kind : EndpointKind) (active : Bool)
    (info : EndpointDiscoveryInfo ι θ) (registry : TypeObjectRegistry θ ο) :
    (onEndpointDiscovery ds own kind active s info registry).spy = s.spy := by
  rw [onEndpointDiscovery_eq]
  cases sentEndpointInfo ds own kind active info registry <;> rfl

theorem Routes.spy_eq {out : Option (Event τ π)} {s' : DiscoveryState σ τ}
    (h : Routes ds env ts s out s') : s'.spy = out.elim s.spy (s.spy.step env ts) := by
  cases h <;> rfl

/-- The tool takes the step that is emitted. -/
theorem spy_step (s : DiscoveryState σ τ) (e : Step ι θ ο τ π) :
    (step ds own env ts s e).spy =
      (emits ds s e).elim s.spy (s.spy.step env ts) := by
  cases e with
  | onParticipantDiscovery reason info =>
      rw [step, onParticipantDiscovery_eq]
      cases sentParticipantInfo ds own reason info <;> rfl
  | onReaderDiscovery reason info registry => exact spy_onEndpointDiscovery _ _ info registry
  | onWriterDiscovery reason info registry => exact spy_onEndpointDiscovery _ _ info registry
  | route discriminator =>
      exact (route_routes ds env ts s discriminator).spy_eq
  | addSchema dynamicType => rfl
  | addData topic data => rfl
  | input command arguments => rfl

/-! ## The internal readers -/

theorem Routes.participants_eq {out : Option (Event τ π)} {s' : DiscoveryState σ τ}
    (h : Routes ds env ts s out s') :
    (out.bind Event.participantInfo?).toList ++ pendingParticipants ds s' =
      pendingParticipants ds s := by
  cases h with
  | idle => rfl
  | participant h => simp [pendingParticipants, h, Event.participantInfo?,
      RoutingData.participantInfo?]
  | endpoint h => rfl
  | badParticipant h =>
      simp [pendingParticipants, h, List.filterMap_cons, RoutingData.participantInfo?]
  | badEndpoint h => rfl

theorem Routes.endpoints_eq {out : Option (Event τ π)} {s' : DiscoveryState σ τ}
    (h : Routes ds env ts s out s') :
    (out.bind Event.record).toList ++ pendingEndpoints ds s' = pendingEndpoints ds s := by
  cases h with
  | idle => rfl
  | participant h => rfl
  | endpoint h => simp [pendingEndpoints, h, Event.record, RoutingData.endpointInfo?]
  | badParticipant h => rfl
  | badEndpoint h => simp [pendingEndpoints, h, List.filterMap_cons, RoutingData.endpointInfo?]

theorem pendingParticipants_onParticipantDiscovery (reason : ParticipantDiscoveryStatus)
    (info : ParticipantBuiltinTopicData) :
    pendingParticipants ds (onParticipantDiscovery ds own s reason info) =
      pendingParticipants ds s ++ (sentParticipantInfo ds own reason info).toList := by
  rw [onParticipantDiscovery_eq]
  cases sentParticipantInfo ds own reason info <;>
    simp [pendingParticipants, ds.internalReader.content_push, RoutingData.participantInfo?]

theorem pendingEndpoints_onEndpointDiscovery (kind : EndpointKind) (active : Bool)
    (info : EndpointDiscoveryInfo ι θ) (registry : TypeObjectRegistry θ ο) :
    pendingEndpoints ds (onEndpointDiscovery ds own kind active s info registry) =
      pendingEndpoints ds s ++ (sentEndpointInfo ds own kind active info registry).toList := by
  rw [onEndpointDiscovery_eq]
  cases sentEndpointInfo ds own kind active info registry <;>
    simp [pendingEndpoints, ds.internalReader.content_push, RoutingData.endpointInfo?]

theorem pendingParticipants_onEndpointDiscovery (kind : EndpointKind) (active : Bool)
    (info : EndpointDiscoveryInfo ι θ) (registry : TypeObjectRegistry θ ο) :
    pendingParticipants ds (onEndpointDiscovery ds own kind active s info registry) =
      pendingParticipants ds s := by
  rw [onEndpointDiscovery_eq]
  cases sentEndpointInfo ds own kind active info registry <;> rfl

theorem pendingEndpoints_onParticipantDiscovery (reason : ParticipantDiscoveryStatus)
    (info : ParticipantBuiltinTopicData) :
    pendingEndpoints ds (onParticipantDiscovery ds own s reason info) = pendingEndpoints ds s := by
  rw [onParticipantDiscovery_eq]
  cases sentParticipantInfo ds own reason info <;> rfl

/-- A step hands over the oldest participant record under way, or adds one behind the rest. -/
theorem pendingParticipants_step (ds : DiscoverySupport ι θ ο σ) (own : Guid) (env : External)
    (ts : TypeSupport τ π δ) (s : DiscoveryState σ τ) (e : Step ι θ ο τ π) :
    ((emits ds s e).bind Event.participantInfo?).toList ++
        pendingParticipants ds (step ds own env ts s e) =
      pendingParticipants ds s ++ (sentParticipant ds own e).toList := by
  cases e with
  | onParticipantDiscovery reason info =>
      exact pendingParticipants_onParticipantDiscovery reason info
  | onReaderDiscovery reason info registry =>
      exact (pendingParticipants_onEndpointDiscovery _ _ info registry).trans
        (List.append_nil _).symm
  | onWriterDiscovery reason info registry =>
      exact (pendingParticipants_onEndpointDiscovery _ _ info registry).trans
        (List.append_nil _).symm
  | route discriminator =>
      exact (route_routes ds env ts s discriminator).participants_eq.trans (List.append_nil _).symm
  | addSchema dynamicType => exact (List.append_nil _).symm
  | addData topic data => exact (List.append_nil _).symm
  | input command arguments => exact (List.append_nil _).symm

theorem pendingEndpoints_step (ds : DiscoverySupport ι θ ο σ) (own : Guid) (env : External)
    (ts : TypeSupport τ π δ) (s : DiscoveryState σ τ) (e : Step ι θ ο τ π) :
    ((emits ds s e).bind Event.record).toList ++ pendingEndpoints ds (step ds own env ts s e) =
      pendingEndpoints ds s ++ (sentEndpoint ds own e).toList := by
  cases e with
  | onParticipantDiscovery reason info =>
      exact (pendingEndpoints_onParticipantDiscovery reason info).trans (List.append_nil _).symm
  | onReaderDiscovery reason info registry =>
      exact pendingEndpoints_onEndpointDiscovery _ _ info registry
  | onWriterDiscovery reason info registry =>
      exact pendingEndpoints_onEndpointDiscovery _ _ info registry
  | route discriminator =>
      exact (route_routes ds env ts s discriminator).endpoints_eq.trans (List.append_nil _).symm
  | addSchema dynamicType => exact (List.append_nil _).symm
  | addData topic data => exact (List.append_nil _).symm
  | input command arguments => exact (List.append_nil _).symm

/-! ## Types of the data -/

/-- Each internal reader holds the data of its topic, and no writer was given other data. -/
structure WellTyped (ds : DiscoverySupport ι θ ο σ) (s : DiscoveryState σ τ) : Prop where
  participants : ∀ data ∈ ds.internalReader.content s.participantsReader,
    data.internalTypeDiscriminator = internalTopicTypeParticipantsInfo
  endpoints : ∀ data ∈ ds.internalReader.content s.endpointsReader,
    data.internalTypeDiscriminator = internalTopicTypeEndpointInfo
  not_badCast : s.badCast = false

theorem WellTyped.onParticipantDiscovery (h : WellTyped ds s) (reason : ParticipantDiscoveryStatus)
    (info : ParticipantBuiltinTopicData) :
    WellTyped ds (onParticipantDiscovery ds own s reason info) := by
  rw [onParticipantDiscovery_eq]
  cases sentParticipantInfo ds own reason info with
  | none => exact h
  | some data =>
      refine ⟨fun d hd => ?_, h.endpoints, h.not_badCast⟩
      rw [Option.elim_some, ds.internalReader.content_push] at hd
      rcases List.mem_append.mp hd with hd | hd
      · exact h.participants d hd
      · exact List.mem_singleton.mp hd ▸ rfl

theorem WellTyped.onEndpointDiscovery (h : WellTyped ds s) (kind : EndpointKind) (active : Bool)
    (info : EndpointDiscoveryInfo ι θ) (registry : TypeObjectRegistry θ ο) :
    WellTyped ds (onEndpointDiscovery ds own kind active s info registry) := by
  rw [onEndpointDiscovery_eq]
  cases sentEndpointInfo ds own kind active info registry with
  | none => exact h
  | some data =>
      refine ⟨h.participants, fun d hd => ?_, h.not_badCast⟩
      rw [Option.elim_some, ds.internalReader.content_push] at hd
      rcases List.mem_append.mp hd with hd | hd
      · exact h.endpoints d hd
      · exact List.mem_singleton.mp hd ▸ rfl

theorem WellTyped.routes (h : WellTyped ds s) {out : Option (Event τ π)}
    {s' : DiscoveryState σ τ} (hroutes : Routes ds env ts s out s') : WellTyped ds s' := by
  cases hroutes with
  | idle => exact h
  | participant hq =>
      have hparticipants := h.participants
      rw [hq] at hparticipants
      exact ⟨fun d hd => hparticipants d (List.mem_cons_of_mem _ hd), h.endpoints, h.not_badCast⟩
  | endpoint hq =>
      have hendpoints := h.endpoints
      rw [hq] at hendpoints
      exact ⟨h.participants, fun d hd => hendpoints d (List.mem_cons_of_mem _ hd), h.not_badCast⟩
  | badParticipant hq =>
      have hfirst := h.participants _ (hq ▸ List.mem_cons_self)
      simp [RoutingData.internalTypeDiscriminator, internalTopicTypeParticipantsInfo,
        internalTopicTypeEndpointInfo] at hfirst
  | badEndpoint hq =>
      have hfirst := h.endpoints _ (hq ▸ List.mem_cons_self)
      simp [RoutingData.internalTypeDiscriminator, internalTopicTypeParticipantsInfo,
        internalTopicTypeEndpointInfo] at hfirst

theorem WellTyped.step (h : WellTyped ds s) (e : Step ι θ ο τ π) :
    WellTyped ds (step ds own env ts s e) := by
  cases e with
  | onParticipantDiscovery reason info => exact h.onParticipantDiscovery reason info
  | onReaderDiscovery reason info registry => exact h.onEndpointDiscovery _ _ info registry
  | onWriterDiscovery reason info registry => exact h.onEndpointDiscovery _ _ info registry
  | route discriminator => exact h.routes (route_routes (π := π) ds env _ s discriminator)
  | addSchema dynamicType => exact ⟨h.participants, h.endpoints, h.not_badCast⟩
  | addData topic data => exact ⟨h.participants, h.endpoints, h.not_badCast⟩
  | input command arguments => exact ⟨h.participants, h.endpoints, h.not_badCast⟩

end Discovery

end FastDdsSpy
