import FastDdsSpy.Model.SpyModel

/-! # `ModelParser`

The queries behind the listing commands. A loop over a database visits its entries in
the order of their keys. -/

namespace FastDdsSpy

open Std

/-! ## Parser data -/

structure SimpleParticipantData where
  name : String
  guid : Guid

/-- `ComplexParticipantData::Endpoint`: the endpoints of a participant on one topic. -/
structure TopicEndpoints where
  topicName : String
  topicType : String
  number : ℕ
  deriving DecidableEq, Repr

structure ComplexParticipantData extends SimpleParticipantData where
  writers : List TopicEndpoints
  readers : List TopicEndpoints

structure SimpleEndpointData where
  guid : Guid
  participantName : String
  topicName : String
  topicType : String

structure ComplexEndpointData where
  guid : Guid := default
  participantName : String := ""
  topicName : String := ""
  topicType : String := ""
  partition : String := ""
  durability : DurabilityKind := .volatile
  reliability : ReliabilityKind := .bestEffort

structure TopicRate where
  rate : WithTop ℚ
  unit : String

structure SimpleTopicData where
  name : String
  type : String
  datawriters : ℕ
  datareaders : ℕ
  rate : TopicRate

/-- `ComplexTopicData::Endpoint`. -/
structure TopicEndpoint where
  guid : Guid
  partition : String

structure ComplexTopicData where
  name : String
  type : String
  datawriters : List TopicEndpoint
  datareaders : List TopicEndpoint
  rate : TopicRate
  discovered : Bool

structure TopicKeysData where
  topicName : String
  keyFields : List String
  instances : List String
  instanceCount : ℕ

namespace ModelParser

variable {τ κ : Type*} (env : External) (m : SpyModel τ κ)

/-- The name shown for a topic. -/
def displayedTopic (name : String) : String :=
  if m.ros2Types then env.demangleIfRosTopic name else name

/-- The name shown for a type. -/
def displayedType (name : String) : String :=
  if m.ros2Types then env.demangleIfRosType name else name

/-- The partition string stored for an endpoint under its own GUID. -/
def partitionOf (guid : Guid) (info : EndpointInfo) : String :=
  info.specificPartitions[env.guidToString guid]?.getD ""

/-! ## Participants -/

/-- `participants`. -/
def participants : List SimpleParticipantData :=
  (m.participantDatabase.toList.filter (fun it => it.2.active)).map
    (fun it => ⟨it.2.name, it.2.guid⟩)

/-- The index of the topics seen so far and the vector it points into. -/
abbrev TopicIndex := ExtTreeMap String ℕ × List TopicEndpoints

/-- `add_endpoint_to_vector`. -/
def addEndpointToVector (acc : TopicIndex) (endpoint : EndpointInfoData) : TopicIndex :=
  let topic := endpoint.info.topic
  match acc.1[topic.topicName]? with
  | none => (acc.1.insert topic.topicName acc.2.length,
      acc.2 ++ [⟨displayedTopic env m topic.topicName, displayedType env m topic.typeName, 1⟩])
  | some i => (acc.1, acc.2.modify i (fun entry => { entry with number := entry.number + 1 }))

/-- What the loop of `participants(model, guid)` collects of the readers, or of the writers. -/
def groupEndpoints (endpoints : List EndpointInfoData) : List TopicEndpoints :=
  (endpoints.foldl (addEndpointToVector env m) (∅, [])).2

/-- The loop of `participants(model, guid)` over the whole database. The readers and the
writers have an index and a vector each. -/
def participantsLoop (guidPrefix : BitVec 96) (endpoints : List EndpointInfoData) :
    TopicIndex × TopicIndex :=
  endpoints.foldl (fun (readers, writers) endpoint =>
    if endpoint.info.guid.guidPrefix == guidPrefix then
      if endpoint.info.isReader then (addEndpointToVector env m readers endpoint, writers)
      else if endpoint.info.isWriter then (readers, addEndpointToVector env m writers endpoint)
      else (readers, writers)
    else (readers, writers)) ((∅, []), (∅, []))

/-- `participants(model, guid)`; the blank record when the participant is not known. -/
def participantsByGuid (guid : Guid) : ComplexParticipantData :=
  match m.participantDatabase.toList.find? (fun it => it.1 == guid) with
  | none => ⟨⟨"", default⟩, [], []⟩
  | some it =>
      if guid.isValid then
        let endpoints := (m.endpointDatabase.toList.map Prod.snd).filter
          (fun endpoint => endpoint.info.guid.guidPrefix == guid.guidPrefix)
        ⟨⟨it.2.name, guid⟩,
          groupEndpoints env m (endpoints.filter
            (fun endpoint => !endpoint.info.isReader && endpoint.info.isWriter)),
          groupEndpoints env m (endpoints.filter (fun endpoint => endpoint.info.isReader))⟩
      else ⟨⟨it.2.name, guid⟩, [], []⟩

/-- `participants_verbose`. -/
def participantsVerbose : List ComplexParticipantData :=
  (m.participantDatabase.toList.filter (fun it => it.2.active)).map
    (fun it => participantsByGuid env m it.2.guid)

/-- `get_participant_name`. -/
def getParticipantName (guid : Guid) : String :=
  match m.participantDatabase.toList.find?
      (fun it => it.2.active && it.1.guidPrefix == guid.guidPrefix) with
  | none => ""
  | some it => it.2.name

/-! ## Endpoints -/

/-- `fill_simple_endpoint`. -/
def fillSimpleEndpoint (endpoint : EndpointInfo) : SimpleEndpointData where
  guid := endpoint.guid
  participantName := getParticipantName m endpoint.guid
  topicName := displayedTopic env m endpoint.topic.topicName
  topicType := displayedType env m endpoint.topic.typeName

/-- `fill_complex_endpoint`. -/
def fillComplexEndpoint (endpoint : EndpointInfo) : ComplexEndpointData where
  guid := endpoint.guid
  participantName := getParticipantName m endpoint.guid
  topicName := displayedTopic env m endpoint.topic.topicName
  topicType := displayedType env m endpoint.topic.typeName
  partition := partitionOf env endpoint.guid endpoint
  durability := endpoint.topic.topicQos.durabilityQos
  reliability := endpoint.topic.topicQos.reliabilityQos

/-- `set_endpoint_simple_information`. -/
def setEndpointSimpleInformation (kind : EndpointKind) : List SimpleEndpointData :=
  (m.endpointDatabase.toList.filter
    (fun endpoint => endpoint.2.info.active && endpoint.2.info.kind == kind)).map
    (fun endpoint => fillSimpleEndpoint env m endpoint.2.info)

/-- `set_endpoint_complex_information`; the blank record when nothing is found. -/
def setEndpointComplexInformation (kind : EndpointKind) (guid : Guid) : ComplexEndpointData :=
  match m.endpointDatabase.toList.find? (fun endpoint => endpoint.2.info.active &&
      endpoint.1 == guid && endpoint.2.info.kind == kind) with
  | none => {}
  | some endpoint => fillComplexEndpoint env m endpoint.2.info

/-- The loop of `writers_verbose` and `readers_verbose`. -/
def endpointsVerbose (kind : EndpointKind) : List ComplexEndpointData :=
  (m.endpointDatabase.toList.filter
    (fun endpoint => endpoint.2.info.active && endpoint.2.info.kind == kind)).map
    (fun endpoint => setEndpointComplexInformation env m kind endpoint.2.info.guid)

def writers : List SimpleEndpointData := setEndpointSimpleInformation env m .writer

def writersVerbose : List ComplexEndpointData := endpointsVerbose env m .writer

def writersByGuid (guid : Guid) : ComplexEndpointData :=
  setEndpointComplexInformation env m .writer guid

def readers : List SimpleEndpointData := setEndpointSimpleInformation env m .reader

def readersVerbose : List ComplexEndpointData := endpointsVerbose env m .reader

def readersByGuid (guid : Guid) : ComplexEndpointData :=
  setEndpointComplexInformation env m .reader guid

/-! ## Topics -/

/-- `get_topics`. -/
def getTopics (filterTopic : WildcardDdsFilterTopic) : ExtTreeSet DdsTopic DdsTopic.cmp :=
  m.endpointDatabase.toList.foldl (fun result endpoint =>
    if !endpoint.2.info.active || !env.topicMatches filterTopic endpoint.2.info.topic then result
    else result.insert endpoint.2.info.topic) ∅

/-- The active endpoints whose topic has this name, which both topic views go through. -/
def activeOnTopic (topicName : String) : List (Guid × EndpointInfoData) :=
  m.endpointDatabase.toList.filter
    (fun endpoint => endpoint.2.info.active && endpoint.2.info.topic.topicName == topicName)

/-- `simple_topic_data`. -/
def simpleTopicData (topic : DdsTopic) : SimpleTopicData where
  name := displayedTopic env m topic.topicName
  type := displayedType env m topic.typeName
  datawriters := (activeOnTopic m topic.topicName).countP (fun endpoint => endpoint.2.info.isWriter)
  datareaders := (activeOnTopic m topic.topicName).countP (fun endpoint => endpoint.2.info.isReader)
  rate := ⟨m.getTopicRate topic, "Hz"⟩

/-- `complex_topic_data`. -/
def complexTopicData (topic : DdsTopic) : ComplexTopicData where
  name := displayedTopic env m topic.topicName
  type := displayedType env m topic.typeName
  datawriters := ((activeOnTopic m topic.topicName).filter
    (fun endpoint => endpoint.2.info.isWriter)).map
      (fun endpoint => ⟨endpoint.1, partitionOf env endpoint.1 endpoint.2.info⟩)
  datareaders := ((activeOnTopic m topic.topicName).filter
    (fun endpoint => endpoint.2.info.isReader)).map
      (fun endpoint => ⟨endpoint.1, partitionOf env endpoint.1 endpoint.2.info⟩)
  rate := ⟨m.getTopicRate topic, "Hz"⟩
  discovered := m.isTopicTypeDiscovered topic

/-- `topics`. -/
def topics (filterTopic : WildcardDdsFilterTopic) : List SimpleTopicData :=
  (getTopics env m filterTopic).toList.map (simpleTopicData env m)

/-- `topics_verbose`. -/
def topicsVerbose (filterTopic : WildcardDdsFilterTopic) : List ComplexTopicData :=
  (getTopics env m filterTopic).toList.map (complexTopicData env m)

def noTypeInformation : String := "No type information available and thus cannot print data."

/-- `topics_type_idl`. -/
def topicsTypeIdl (filterTopic : WildcardDdsFilterTopic) : String :=
  let topics := getTopics env m filterTopic
  match topics.toList.findSome? (fun topic => m.endpointDatabase.toList.findSome?
      (fun endpoint => if endpoint.2.info.active && DdsTopic.cmp endpoint.2.info.topic topic == .eq
        && endpoint.2.typeIdl != "" then some endpoint.2.typeIdl else none)) with
  | some typeIdl => typeIdl
  | none => if !topics.isEmpty then noTypeInformation else ""

/-- `topics_keys_by_ddstopic`. -/
def topicsKeysByDdstopic (topics : ExtTreeSet DdsTopic DdsTopic.cmp) : List TopicKeysData :=
  (topics.toList.filter (fun topic => m.isAnyTopicTypeDiscovered
    (ExtTreeSet.insert (∅ : ExtTreeSet DdsTopic DdsTopic.cmp) topic))).map (fun topic =>
      let instances := m.getTopicInstances topic.topicName
      ⟨displayedTopic env m topic.topicName, m.getTopicKeyFields topic.topicName,
        instances.toList, instances.size⟩)

/-- `topics_keys`. -/
def topicsKeys (filterTopic : WildcardDdsFilterTopic) : List TopicKeysData :=
  let topics := getTopics env m filterTopic
  if topics.isEmpty then [] else topicsKeysByDdstopic env m topics

end ModelParser

end FastDdsSpy
