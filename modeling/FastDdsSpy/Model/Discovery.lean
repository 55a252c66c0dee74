import FastDdsSpy.Library.Channels
import FastDdsSpy.Model.System

/-! # Discovery

The listener of the DDS participant puts a record for every discovery into an internal reader,
the pipe carries it to the internal writer of the same topic, and the writer stores it in the
model. Discovery threads, the threads of the pipe, data threads and the user interleave. -/

namespace FastDdsSpy

open PastTime

inductive ParticipantDiscoveryStatus
  | discoveredParticipant | changedQosParticipant | removedParticipant | droppedParticipant
  | ignoredParticipant
  deriving DecidableEq, Repr

inductive ReaderDiscoveryStatus
  | discoveredReader | changedQosReader | removedReader | ignoredReader
  deriving DecidableEq, Repr

inductive WriterDiscoveryStatus
  | discoveredWriter | changedQosWriter | removedWriter | ignoredWriter
  deriving DecidableEq, Repr

structure ParticipantBuiltinTopicData where
  guid : Guid
  participantName : String

/-- `SubscriptionBuiltinTopicData` and `PublicationBuiltinTopicData`: the GUID, the identifier
of the complete type where type information is assigned, and the rest of type `ι`. -/
structure EndpointDiscoveryInfo (ι θ : Type*) where
  guid : Guid
  typeInformation : Option θ
  rest : ι

/-- `get_type_object`: what the registry of Fast DDS holds at the time of a call. -/
abbrev TypeObjectRegistry (θ ο : Type*) := θ → Option ο

/-- `IRoutingData`, as far as it travels on the topics of the spy. -/
inductive RoutingData
  | participantInfo (info : ParticipantInfo)
  | endpointInfo (data : EndpointInfoData)

/-- What the listeners call of Fast DDS and `ddspipe_participants`. `create_endpoint_from_info_`
is overloaded for the data of readers and of writers. -/
structure DiscoverySupport (ι θ ο σ : Type*) where
  comeFromSameParticipant : Guid → Guid → Bool
  createEndpointFromInfo : EndpointKind → EndpointDiscoveryInfo ι θ → EndpointInfo
  idlSerialize : ο → String
  internalReader : Fifo RoutingData σ
  comeFromSameParticipant_eq (a b : Guid) :
    comeFromSameParticipant a b = (a.guidPrefix == b.guidPrefix)
  createEndpointFromInfo_guid (kind : EndpointKind) (info : EndpointDiscoveryInfo ι θ) :
    (createEndpointFromInfo kind info).guid = info.guid
  createEndpointFromInfo_kind (kind : EndpointKind) (info : EndpointDiscoveryInfo ι θ) :
    (createEndpointFromInfo kind info).kind = kind

/-! ## Topics of the spy -/

def internalTopicTypeParticipantsInfo : String := "participant::type::v0"

def internalTopicTypeEndpointInfo : String := "endpoint::type::v0"

/-- `is_participant_info_topic`, on the discriminator of the topic. -/
def isParticipantInfoTopic (discriminator : String) : Bool :=
  discriminator == internalTopicTypeParticipantsInfo

/-- `is_endpoint_info_topic`. -/
def isEndpointInfoTopic (discriminator : String) : Bool :=
  discriminator == internalTopicTypeEndpointInfo

def RoutingData.internalTypeDiscriminator : RoutingData → String
  | .participantInfo _ => internalTopicTypeParticipantsInfo
  | .endpointInfo _ => internalTopicTypeEndpointInfo

/-- The readers, and the writers, of the two topics; `parent` stands for one that the parent
class creates. -/
inductive TopicRole
  | participants | endpoints | parent
  deriving DecidableEq, Repr

/-- `create_reader` of `SpyDdsParticipant` and of `SpyDdsXmlParticipant`. -/
def createReader (discriminator : String) : TopicRole :=
  if isParticipantInfoTopic discriminator then .participants
  else if isEndpointInfoTopic discriminator then .endpoints
  else .parent

/-- `create_writer` of `SpyParticipant`. -/
def createWriter (discriminator : String) : TopicRole :=
  if isParticipantInfoTopic discriminator then .participants
  else if isEndpointInfoTopic discriminator then .endpoints
  else .parent

/-! ## Listener -/

/-- The active flag of a participant record. -/
def ParticipantDiscoveryStatus.active (reason : ParticipantDiscoveryStatus) : Bool :=
  reason == .discoveredParticipant || reason == .changedQosParticipant

def ReaderDiscoveryStatus.active (reason : ReaderDiscoveryStatus) : Bool :=
  reason == .discoveredReader || reason == .changedQosReader

def WriterDiscoveryStatus.active (reason : WriterDiscoveryStatus) : Bool :=
  reason == .discoveredWriter || reason == .changedQosWriter

/-- The internal readers, the model and the command line. `badCast` tells that a writer was
given data of another type, for which `dynamic_cast` throws. -/
structure DiscoveryState (σ τ : Type*) where
  participantsReader : σ
  endpointsReader : σ
  spy : Spy τ
  badCast : Bool

namespace Discovery

variable {ι θ ο σ τ π δ : Type*} (ds : DiscoverySupport ι θ ο σ)

/-- `get_type_idl`. -/
def getTypeIdl (registry : TypeObjectRegistry θ ο) (info : EndpointDiscoveryInfo ι θ) : String :=
  match info.typeInformation with
  | none => ""
  | some typeId =>
    match registry typeId with
    | none => ""
    | some remoteTypeObject => ds.idlSerialize remoteTypeObject

/-- `internal_notify_participant_discovered_`. -/
def internalNotifyParticipantDiscovered (s : DiscoveryState σ τ)
    (participantDiscovered : ParticipantInfo) : DiscoveryState σ τ :=
  { s with participantsReader :=
    ds.internalReader.push s.participantsReader (.participantInfo participantDiscovered) }

/-- `internal_notify_endpoint_discovered_`. -/
def internalNotifyEndpointDiscovered (s : DiscoveryState σ τ) (endpointDiscovered : EndpointInfo)
    (typeIdl : String) : DiscoveryState σ τ :=
  { s with endpointsReader :=
    ds.internalReader.push s.endpointsReader (.endpointInfo ⟨endpointDiscovered, typeIdl⟩) }

variable (own : Guid)

/-- `on_participant_discovery`, without the call of the parent class. -/
def onParticipantDiscovery (s : DiscoveryState σ τ) (reason : ParticipantDiscoveryStatus)
    (info : ParticipantBuiltinTopicData) : DiscoveryState σ τ :=
  if ds.comeFromSameParticipant info.guid own then s
  else internalNotifyParticipantDiscovered ds s ⟨info.participantName, info.guid, reason.active⟩

/-- What the callbacks for readers and for writers have in common. -/
def onEndpointDiscovery (kind : EndpointKind) (active : Bool) (s : DiscoveryState σ τ)
    (info : EndpointDiscoveryInfo ι θ) (registry : TypeObjectRegistry θ ο) : DiscoveryState σ τ :=
  if ds.comeFromSameParticipant info.guid own then s
  else
    let endpointInfo := { ds.createEndpointFromInfo kind info with active := active }
    internalNotifyEndpointDiscovered ds s endpointInfo (getTypeIdl ds registry info)

/-- `on_reader_discovery`, and `on_data_reader_discovery`. -/
def onReaderDiscovery (s : DiscoveryState σ τ) (reason : ReaderDiscoveryStatus)
    (info : EndpointDiscoveryInfo ι θ) (registry : TypeObjectRegistry θ ο) : DiscoveryState σ τ :=
  onEndpointDiscovery ds own .reader reason.active s info registry

/-- `on_writer_discovery`, and `on_data_writer_discovery`. -/
def onWriterDiscovery (s : DiscoveryState σ τ) (reason : WriterDiscoveryStatus)
    (info : EndpointDiscoveryInfo ι θ) (registry : TypeObjectRegistry θ ο) : DiscoveryState σ τ :=
  onEndpointDiscovery ds own .writer reason.active s info registry

/-! ## Writers -/

variable (env : External) (ts : TypeSupport τ π δ)

/-- `new_participant_info_`. -/
def newParticipantInfo (s : DiscoveryState σ τ) : RoutingData → DiscoveryState σ τ
  | .participantInfo info => { s with spy := s.spy.step env ts (.newParticipantInfo info) }
  | .endpointInfo _ => { s with badCast := true }

/-- `new_endpoint_info_`. -/
def newEndpointInfo (s : DiscoveryState σ τ) : RoutingData → DiscoveryState σ τ
  | .participantInfo _ => { s with badCast := true }
  | .endpointInfo data => { s with spy := s.spy.step env ts (.newEndpointInfo data) }

/-- The data that a reader hands out, with the reader after it. What the parent class creates
is left to it. -/
def takeData (s : DiscoveryState σ τ) : TopicRole → Option (RoutingData × DiscoveryState σ τ)
  | .participants => (ds.internalReader.take s.participantsReader).map
      (Prod.map id fun q => { s with participantsReader := q })
  | .endpoints => (ds.internalReader.take s.endpointsReader).map
      (Prod.map id fun q => { s with endpointsReader := q })
  | .parent => none

def writeData (s : DiscoveryState σ τ) (data : RoutingData) : TopicRole → DiscoveryState σ τ
  | .participants => newParticipantInfo env ts s data
  | .endpoints => newEndpointInfo env ts s data
  | .parent => s

/-- The pipe carries what is next on a topic, if anything, from its reader to its writer. -/
def route (s : DiscoveryState σ τ) (discriminator : String) : DiscoveryState σ τ :=
  match takeData ds s (createReader discriminator) with
  | none => s
  | some (data, s) => writeData env ts s data (createWriter discriminator)

/-! ## Runs -/

/-- A step of one of the threads. -/
inductive Step (ι θ ο τ π : Type*)
  | onParticipantDiscovery (reason : ParticipantDiscoveryStatus)
      (info : ParticipantBuiltinTopicData)
  | onReaderDiscovery (reason : ReaderDiscoveryStatus) (info : EndpointDiscoveryInfo ι θ)
      (registry : TypeObjectRegistry θ ο)
  | onWriterDiscovery (reason : WriterDiscoveryStatus) (info : EndpointDiscoveryInfo ι θ)
      (registry : TypeObjectRegistry θ ο)
  | route (discriminator : String)
  | addSchema (dynamicType : τ)
  | addData (topic : DdsTopic) (data : RtpsPayloadData π)
  | input (command : CommandValue) (arguments : List String)

def step (s : DiscoveryState σ τ) : Step ι θ ο τ π → DiscoveryState σ τ
  | .onParticipantDiscovery reason info => onParticipantDiscovery ds own s reason info
  | .onReaderDiscovery reason info registry => onReaderDiscovery ds own s reason info registry
  | .onWriterDiscovery reason info registry => onWriterDiscovery ds own s reason info registry
  | .route discriminator => route ds env ts s discriminator
  | .addSchema dynamicType => { s with spy := s.spy.step env ts (.addSchema dynamicType) }
  | .addData topic data => { s with spy := s.spy.step env ts (.addData topic data) }
  | .input command arguments => { s with spy := s.spy.step env ts (.input command arguments) }

def start (configuration : Configuration) : DiscoveryState σ τ where
  participantsReader := ds.internalReader.empty
  endpointsReader := ds.internalReader.empty
  spy := .start configuration
  badCast := false

/-- The state after a sequence of steps, from the start of the tool. -/
def exec (configuration : Configuration) (es : List (Step ι θ ο τ π)) : DiscoveryState σ τ :=
  run (step ds own env ts) (start ds configuration) es

end Discovery

end FastDdsSpy
