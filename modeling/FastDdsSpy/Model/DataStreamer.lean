import FastDdsSpy.Model.InstanceCache
import FastDdsSpy.Model.TopicRateCalculator

/-! # `DataStreamer`

`add_data` decides under the lock whether to call the callback and dereferences it after
the lock is released. The two halves are separate functions, as in `InstanceCache`. A
callback is an opaque value of type `κ`. -/

namespace FastDdsSpy

open Std

structure DataStreamer (τ κ : Type*) extends TopicRateCalculator where
  activated : Bool
  callback : Option κ
  activatedAll : Bool
  activatedTopic : WildcardDdsFilterTopic
  typesDiscovered : ExtTreeMap String τ
  instanceCache : InstanceCache

/-- What `(*callback_)(topic, dyn_type, data)` did at the end of an `add_data`. -/
inductive Delivery (τ π κ : Type*)
  | none
  | called (callback : κ) (topic : DdsTopic) (dynType : τ) (data : RtpsPayloadData π)
  | nullCallback

/-- The local variables of an `add_data` that found its type, after the lock is released. -/
structure PendingData (τ π : Type*) where
  topic : DdsTopic
  data : RtpsPayloadData π
  dynType : τ
  shouldCallCallback : Bool

namespace DataStreamer

variable {τ π δ κ : Type*}

/-- A default-constructed streamer. -/
def empty : DataStreamer τ κ where
  toTopicRateCalculator := .empty
  activated := false
  callback := none
  activatedAll := false
  activatedTopic := {}
  typesDiscovered := ∅
  instanceCache := .empty

/-! ## Activation -/

/-- `activate_all`. -/
def activateAll (ds : DataStreamer τ κ) (callback : κ) : DataStreamer τ κ :=
  { ds with activated := true, activatedAll := true, callback := some callback }

/-- `activate`. -/
def activate (ds : DataStreamer τ κ) (topicToActivate : WildcardDdsFilterTopic)
    (callback : κ) : DataStreamer τ κ :=
  { ds with
    activated := true, activatedTopic := topicToActivate, activatedAll := false,
    callback := some callback }

/-- `deactivate`. -/
def deactivate (ds : DataStreamer τ κ) : DataStreamer τ κ :=
  { ds with activated := false, callback := none }

/-! ## Types and samples -/

/-- `add_schema`. -/
def addSchema (ts : TypeSupport τ π δ) (ds : DataStreamer τ κ) (dynamicType : τ) :
    DataStreamer τ κ :=
  { ds with typesDiscovered := ds.typesDiscovered.insert (ts.getName dynamicType) dynamicType }

/-- `add_data` up to the release of the lock: the sample is counted, and nothing is left
to do when its type is not registered. -/
def checkData (env : External) (ds : DataStreamer τ κ) (topic : DdsTopic)
    (data : RtpsPayloadData π) : DataStreamer τ κ × Option (PendingData τ π) :=
  let ds := { ds with toTopicRateCalculator := ds.toTopicRateCalculator.addData topic data }
  match ds.typesDiscovered[topic.typeName]? with
  | none => (ds, none)
  | some dynType => (ds, some ⟨topic, data, dynType,
      ds.activated && (ds.activatedAll || env.topicMatches ds.activatedTopic topic)⟩)

/-- `add_data` after the release of the lock. -/
def invokeData (ts : TypeSupport τ π δ) (ds : DataStreamer τ κ) (p : PendingData τ π) :
    DataStreamer τ κ × Delivery τ π κ :=
  let ds := { ds with instanceCache :=
    (ds.instanceCache.addOrUpdateInstance ts p.topic (some p.dynType) p.data).1 }
  if p.shouldCallCallback then
    match ds.callback with
    | some callback => (ds, .called callback p.topic p.dynType p.data)
    | none => (ds, .nullCallback)
  else (ds, .none)

/-- `add_data`, run without interference. -/
def addData (env : External) (ts : TypeSupport τ π δ) (ds : DataStreamer τ κ) (topic : DdsTopic)
    (data : RtpsPayloadData π) : DataStreamer τ κ × Delivery τ π κ :=
  match checkData env ds topic data with
  | (ds, none) => (ds, .none)
  | (ds, some p) => invokeData ts ds p

/-! ## Queries -/

/-- `is_topic_type_discovered`. -/
def isTopicTypeDiscovered (ds : DataStreamer τ κ) (topic : DdsTopic) : Bool :=
  ds.typesDiscovered.contains topic.typeName

/-- `is_any_topic_type_discovered`. -/
def isAnyTopicTypeDiscovered (ds : DataStreamer τ κ) (topics : ExtTreeSet DdsTopic DdsTopic.cmp) :
    Bool :=
  topics.toList.any (fun topic => ds.typesDiscovered.contains topic.typeName)

/-- `get_topic_instances`. -/
def getTopicInstances (ds : DataStreamer τ κ) (topicName : String) : ExtTreeSet String :=
  ds.instanceCache.getActiveInstances topicName

/-- `get_topic_key_fields`. -/
def getTopicKeyFields (ds : DataStreamer τ κ) (topicName : String) : List String :=
  ds.instanceCache.getKeyFields topicName

/-- `on_writer_discovered`. -/
def onWriterDiscovered (ds : DataStreamer τ κ) (writerGuid : Guid) (topicName : String)
    (active : Bool) : DataStreamer τ κ :=
  { ds with instanceCache := ds.instanceCache.onWriterChanged writerGuid topicName active }

end DataStreamer

end FastDdsSpy
