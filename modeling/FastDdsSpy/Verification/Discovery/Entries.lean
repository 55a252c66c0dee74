import FastDdsSpy.Verification.Discovery.Shown
import FastDdsSpy.Verification.ModelParser.TypeIdl

/-! # What the endpoint database holds of the network

Whatever filter commands are given meanwhile, an entry is the record of the last callback that
has been carried, up to the active flag; so is all that is shown of an endpoint. -/

namespace FastDdsSpy.Discovery

open Std PastTime ModelParser

variable {ι θ ο σ τ π δ : Type*} {ds : DiscoverySupport ι θ ο σ} {own : Guid} {env : External}
  {ts : TypeSupport τ π δ} {cfg : Configuration}

/-- The record that the listener makes of a callback for this endpoint. -/
def reportOf (ds : DiscoverySupport ι θ ο σ) (own guid : Guid) (e : Step ι θ ο τ π) :
    Option EndpointInfoData :=
  (sentEndpoint ds own e).bind (endpointAbout guid)

theorem lastRecord_trace {es pre : List (Step ι θ ο τ π)}
    (hpre : pre.filterMap (sentEndpoint ds own) =
      (trace ds own env ts cfg es).filterMap Event.record) (guid : Guid) :
    Spy.lastRecord guid (trace ds own env ts cfg es) = latest (reportOf ds own guid) pre := by
  rw [Spy.lastRecord, recordOf_eq, ← latest_filterMap, ← hpre, latest_filterMap]
  rfl

/-- A callback for an endpoint: its kind, whether it is there, its data and the registry. -/
def endpointCallback : Step ι θ ο τ π →
    Option (EndpointKind × Bool × EndpointDiscoveryInfo ι θ × TypeObjectRegistry θ ο)
  | .onReaderDiscovery reason info registry => some (.reader, reason.active, info, registry)
  | .onWriterDiscovery reason info registry => some (.writer, reason.active, info, registry)
  | _ => none

theorem sentEndpoint_eq (e : Step ι θ ο τ π) : sentEndpoint ds own e =
    (endpointCallback e).bind (fun c => sentEndpointInfo ds own c.1 c.2.1 c.2.2.1 c.2.2.2) := by
  cases e <;> rfl

/-- An IDL that is not empty is that of the type object in the registry. -/
theorem getTypeIdl_ne_empty {registry : TypeObjectRegistry θ ο} {info : EndpointDiscoveryInfo ι θ}
    (h : getTypeIdl ds registry info ≠ "") : ∃ typeId typeObject,
      info.typeInformation = some typeId ∧ registry typeId = some typeObject ∧
      getTypeIdl ds registry info = ds.idlSerialize typeObject := by
  cases htype : info.typeInformation with
  | none => simp [getTypeIdl, htype] at h
  | some typeId =>
      cases hobject : registry typeId with
      | none => simp [getTypeIdl, htype, hobject] at h
      | some typeObject =>
          exact ⟨typeId, typeObject, rfl, hobject, by simp [getTypeIdl, htype, hobject]⟩

/-- The answer is the IDL of a type object that the registry had in a callback for an endpoint of
another participant. The endpoint is there, and its topic has the name and the type of one that
matches the filter. -/
structure IdlFromCallback (ds : DiscoverySupport ι θ ο σ) (own : Guid) (env : External)
    (es : List (Step ι θ ο τ π)) (s : Spy τ) (filterTopic : WildcardDdsFilterTopic)
    (answer : String) : Prop where
  exists_callback : ∃ e ∈ es, ∃ kind active info registry typeId typeObject,
    endpointCallback e = some (kind, active, info, registry) ∧
    info.guid.guidPrefix ≠ own.guidPrefix ∧ info.typeInformation = some typeId ∧
    registry typeId = some typeObject ∧ answer = ds.idlSerialize typeObject ∧
    (∃ entry : EndpointInfoData,
      s.endpoints[info.guid]? = some entry ∧ entry.info.active = true) ∧
    ∃ guid entry, ActiveMatch env s.controller.model filterTopic guid entry ∧
      DdsTopic.cmp (ds.createEndpointFromInfo kind info).topic entry.info.topic = .eq

theorem idlFromCallback_of_entry {es : List (Step ι θ ο τ π)} {guid : Guid}
    {entry : EndpointInfoData} {filterTopic : WildcardDdsFilterTopic} {topic : DdsTopic}
    (hentry : (exec ds own env ts cfg es).spy.endpoints[guid]? = some entry)
    (hactive : entry.info.active = true) (hcmp : DdsTopic.cmp entry.info.topic topic = .eq)
    (hidl : entry.typeIdl ≠ "")
    (hlisted : topic ∈ (getTopics env (exec ds own env ts cfg es).spy.controller.model
      filterTopic).toList) :
    IdlFromCallback ds own env es (exec ds own env ts cfg es).spy filterTopic entry.typeIdl := by
  obtain ⟨pre, hpre, hsent, -⟩ := exists_prefix_sent (carried_endpoints ds own env ts cfg es)
  have hlast := Spy.endpoint_exec env ts cfg (trace ds own env ts cfg es) guid
  rw [← spy_exec, lastRecord_trace hsent, hentry] at hlast
  cases hreport : latest (reportOf ds own guid) pre with
  | none => simp [hreport] at hlast
  | some data =>
      rw [hreport] at hlast
      obtain ⟨active, heq⟩ := hlast
      obtain rfl := Option.some.inj heq
      obtain ⟨e, he, hreported⟩ := exists_mem_of_latest hreport
      -- the callback that reported the entry
      obtain ⟨record, hrecord, habout⟩ := Option.bind_eq_some_iff.mp hreported
      rw [endpointAbout, Option.ite_none_right_eq_some] at habout
      obtain ⟨rfl, heq⟩ := habout
      obtain rfl := Option.some.inj heq
      rw [sentEndpoint_eq] at hrecord
      obtain ⟨⟨kind, there, info, registry⟩, hcallback, hsentInfo⟩ :=
        Option.bind_eq_some_iff.mp hrecord
      rw [sentEndpointInfo, Option.ite_none_left_eq_some] at hsentInfo
      obtain ⟨hforeign, heq⟩ := hsentInfo
      obtain rfl := Option.some.inj heq
      rw [ds.comeFromSameParticipant_eq, beq_iff_eq] at hforeign
      obtain ⟨typeId, typeObject, htype, hobject, hserialize⟩ := getTypeIdl_ne_empty hidl
      obtain ⟨guid', entry', hmatch, hcmp'⟩ := exists_activeMatch_of_listed hlisted
      have hguid : (ds.createEndpointFromInfo kind info).guid = info.guid :=
        ds.createEndpointFromInfo_guid kind info
      have hthere := hentry
      simp only [hguid] at hthere
      exact ⟨e, hpre.subset he, kind, there, info, registry, typeId, typeObject, hcallback,
        hforeign, htype, hobject, hserialize, ⟨_, hthere, hactive⟩, guid', entry', hmatch,
        TransCmp.eq_trans hcmp (OrientedCmp.eq_symm hcmp')⟩

/-- After every run the IDL query says that no topic matches, that there is no type information,
or shows the IDL of a type object that came with a matching endpoint. -/
theorem idl_from_registry (ds : DiscoverySupport ι θ ο σ) (own : Guid) (env : External)
    (ts : TypeSupport τ π δ) (cfg : Configuration) (es : List (Step ι θ ο τ π))
    (filterTopic : WildcardDdsFilterTopic) :
    let s := (exec ds own env ts cfg es).spy
    let answer := topicsTypeIdl env s.controller.model filterTopic
    answer = "" ∨ answer = noTypeInformation ∨
      IdlFromCallback ds own env es s filterTopic answer := by
  intro s answer
  have hanswer : answer = _ := topicsTypeIdl_eq
  cases hfound : (getTopics env s.controller.model filterTopic).toList.findSome?
      (typeIdlOf s.controller.model) with
  | none =>
      rw [hanswer, hfound]
      cases (getTopics env s.controller.model filterTopic).isEmpty with
      | true => exact .inl rfl
      | false => exact .inr (.inl rfl)
  | some typeIdl =>
      rw [hanswer, hfound]
      obtain ⟨topic, htopic, hsearch⟩ := List.exists_of_findSome?_eq_some hfound
      obtain ⟨guid, entry, hentry, hactive, hcmp, hidl, rfl⟩ := exists_entry_of_typeIdlOf hsearch
      exact .inr (.inr (idlFromCallback_of_entry hentry hactive hcmp hidl htopic))

end FastDdsSpy.Discovery
