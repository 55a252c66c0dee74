import FastDdsSpy.Model.Controller
import FastDdsSpy.Model.YamlWriter

/-! # The YAML of the views

The specializations of `set` in `YamlWriter.cpp` for the results of `ModelParser`, and for what
is printed with a sample. -/

namespace FastDdsSpy

/-- What the writer uses of other libraries: the texts of a GUID, of a rate in a stream and as a
decimal (`std::to_string`), of a time in seconds, and the node of a vector from the nodes of its
elements. -/
structure ViewSupport where
  guidToString : Guid → String
  rateToString : WithTop ℚ → String
  rateToDecimal : WithTop ℚ → String
  timestampToString : ℤ → String
  setCollection : List YamlNode → YamlNode
  guidToString_injective : Function.Injective guidToString
  bracket_notMem_guidToString : ∀ guid, '[' ∉ (guidToString guid).toList
  bracket_notMem_rateToDecimal : ∀ rate, '[' ∉ (rateToDecimal rate).toList
  setCollection_injective : Function.Injective setCollection

/-- `DdsDataData`. -/
structure DdsDataData where
  topicName : String
  topicType : String
  writer : Guid
  partitions : String
  timestamp : DataTime

namespace YamlWriter

variable (vs : ViewSupport)

/-! ## Participants -/

def setSimpleParticipant (value : SimpleParticipantData) : YamlNode :=
  .map [("name", .scalar value.name), ("guid", .scalar (vs.guidToString value.guid))]

/-- `ComplexParticipantData::Endpoint`. -/
def setTopicEndpoints (value : TopicEndpoints) : YamlNode :=
  .scalar (value.topicName ++ " [" ++ value.topicType ++ "] (" ++ toString value.number ++ ")")

def setComplexParticipant (value : ComplexParticipantData) : YamlNode :=
  .map [("name", .scalar value.name), ("guid", .scalar (vs.guidToString value.guid)),
    ("datawriters", vs.setCollection (value.writers.map setTopicEndpoints)),
    ("datareaders", vs.setCollection (value.readers.map setTopicEndpoints))]

/-! ## Endpoints -/

/-- `SimpleEndpointData::Topic`. -/
def setTopic (topicName topicType : String) : YamlNode :=
  .scalar (topicName ++ " [" ++ topicType ++ "]")

def setSimpleEndpoint (value : SimpleEndpointData) : YamlNode :=
  .map [("guid", .scalar (vs.guidToString value.guid)),
    ("participant", .scalar value.participantName),
    ("topic", setTopic value.topicName value.topicType)]

/-- `ComplexEndpointData::QoS`. -/
def setQos (durability : DurabilityKind) (reliability : ReliabilityKind) : YamlNode :=
  .map [("durability", .scalar (if durability = .volatile then "volatile" else "transient-local")),
    ("reliability", .scalar (if reliability = .bestEffort then "best-effort" else "reliable"))]

def setComplexEndpoint (value : ComplexEndpointData) : YamlNode :=
  .map [("guid", .scalar (vs.guidToString value.guid)),
    ("participant", .scalar value.participantName),
    ("topic", .map [("name", .scalar value.topicName), ("type", .scalar value.topicType),
      ("partitions", .scalar value.partition)]),
    ("qos", setQos value.durability value.reliability)]

/-! ## Topics -/

/-- `SimpleTopicData::Rate`. -/
def setRate (value : TopicRate) : YamlNode :=
  .scalar (vs.rateToString value.rate ++ " " ++ value.unit)

def setSimpleTopic (value : SimpleTopicData) (isCompact : Bool) : YamlNode :=
  if isCompact then
    .map [("topic", .scalar (value.name ++ " (" ++ value.type ++ ") (" ++
      toString value.datawriters ++ "|" ++ toString value.datareaders ++ ") [" ++
      vs.rateToDecimal value.rate.rate ++ " " ++ value.rate.unit ++ "]"))]
  else
    .map [("name", .scalar value.name), ("type", .scalar value.type),
      ("datawriters", .scalar (toString value.datawriters)),
      ("datareaders", .scalar (toString value.datareaders)), ("rate", setRate vs value.rate)]

/-- `ComplexTopicData::Endpoint`. -/
def setTopicEndpoint (value : TopicEndpoint) : YamlNode :=
  .scalar (vs.guidToString value.guid ++ " [" ++
    (if value.partition = "" then "\"\"" else value.partition) ++ "]")

def setComplexTopic (value : ComplexTopicData) : YamlNode :=
  .map [("name", .scalar value.name), ("type", .scalar value.type),
    ("datawriters", vs.setCollection (value.datawriters.map (setTopicEndpoint vs))),
    ("datareaders", vs.setCollection (value.datareaders.map (setTopicEndpoint vs))),
    ("rate", setRate vs value.rate),
    ("dynamic_type_discovered", .scalar (if value.discovered then "true" else "false"))]

/-! ## Samples -/

def setDdsData (value : DdsDataData) : YamlNode :=
  .map [("topic", setTopic value.topicName value.topicType),
    ("writer", .scalar (vs.guidToString value.writer)), ("partitions", .scalar value.partitions),
    ("timestamp", .scalar (vs.timestampToString value.timestamp.seconds))]

/-! ## Results -/

variable {φ : Type*} (ds : DoubleSupport φ) (nt : NumberText (JsonNumber φ))

/-- The node that `view_.show` is given. -/
def set : Yaml → YamlNode
  | .null => .null
  | .simpleParticipants data => vs.setCollection (data.map (setSimpleParticipant vs))
  | .complexParticipants data => vs.setCollection (data.map (setComplexParticipant vs))
  | .complexParticipant data => setComplexParticipant vs data
  | .simpleEndpoints data => vs.setCollection (data.map (setSimpleEndpoint vs))
  | .complexEndpoints data => vs.setCollection (data.map (setComplexEndpoint vs))
  | .complexEndpoint data => setComplexEndpoint vs data
  | .simpleTopics data isCompact =>
      vs.setCollection (data.map fun value => setSimpleTopic vs value isCompact)
  | .complexTopics data => vs.setCollection (data.map (setComplexTopic vs))
  | .topicKeys data isCompact =>
      vs.setCollection (data.map fun value => topicKeysToYaml ds nt value isCompact)

end YamlWriter

end FastDdsSpy
