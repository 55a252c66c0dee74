import FastDdsSpy.Model.Types

/-! # `InstanceCache`

`add_or_update_instance` holds the mutex in two critical sections with the
serialization of the key between them. The sections are separate functions here, so
that the sequential and the interleaved executions run the same code. Log messages
and `last_seen`, which nothing reads, are left out; no call throws. -/

namespace FastDdsSpy

open Std

/-- `InstanceCache::InstanceInfo`. -/
structure InstanceInfo where
  keyRepresentation : String
  activeWriters : ExtTreeSet Guid

/-- `active_writers.insert`. -/
def InstanceInfo.insertWriter (info : InstanceInfo) (writerGuid : Guid) : InstanceInfo :=
  { info with activeWriters := info.activeWriters.insert writerGuid }

/-- A per-topic map of `instances_by_topic_`. `node` is the identity of the C++ object:
a reference taken by an add refers to the object, not to the topic name. -/
structure TopicInstances where
  node : ℕ
  instances : ExtTreeMap InstanceHandle InstanceInfo

/-- `nextNode` numbers the per-topic maps in order of creation. -/
structure InstanceCache where
  instancesByTopic : ExtTreeMap String TopicInstances
  keyFieldsCache : ExtTreeMap String (List String)
  noKeyMetadataWarnedTopics : ExtTreeSet String
  nextNode : ℕ

namespace InstanceCache

/-- A default-constructed cache. -/
def empty : InstanceCache := ⟨∅, ∅, ∅, 0⟩

/-- `MAX_INSTANCES_PER_TOPIC`. -/
def maxInstancesPerTopic : ℕ := 1000

variable {τ π δ : Type*} (ts : TypeSupport τ π δ)

/-! ## Key metadata -/

/-- The member loop of `extract_key_field_names_`: the names of the `@key` members. -/
def keyFieldNames (dynType : τ) : List String :=
  match ts.getAllMembers dynType with
  | none => []
  | some members => (members.filter (fun m => m.isKey == some true)).map DynamicTypeMember.name

/-- `extract_key_field_names_`: only recomputes when no key metadata is known yet. -/
def extractKeyFieldNames (c : InstanceCache) (topicName : String) (dynType : τ) :
    InstanceCache :=
  match c.keyFieldsCache[topicName]? with
  | some (_ :: _) => c
  | _ => { c with keyFieldsCache := c.keyFieldsCache.insert topicName (keyFieldNames ts dynType) }

/-- `create_key_only_dynamic_data_`: fails when the type has no key member. -/
def createKeyOnlyDynamicData (dynType : τ) (data : δ) : Option δ :=
  match ts.getAllMembers dynType with
  | none => none
  | some members =>
      if members.any (fun m => m.isKey == some true) then some (ts.copyKeyMembers dynType data)
      else none

/-- `serialize_key_to_json_`: the empty string stands for every failure. -/
def serializeKeyToJson (dynType : τ) (payload : π) : String :=
  match ts.deserialize dynType payload with
  | none => ""
  | some data =>
      match createKeyOnlyDynamicData ts dynType data with
      | none => ""
      | some keyData => (ts.jsonSerialize keyData).getD ""

/-! ## The two critical sections of an add -/

/-- `instances_by_topic_[topic_name]`: creates an empty map when there is none. -/
def topicInstances (c : InstanceCache) (topicName : String) : InstanceCache × TopicInstances :=
  match c.instancesByTopic[topicName]? with
  | some topic => (c, topic)
  | none =>
      let topic : TopicInstances := ⟨c.nextNode, ∅⟩
      ({ c with
          instancesByTopic := c.instancesByTopic.insert topicName topic
          nextNode := c.nextNode + 1 }, topic)

/-- How the first critical section ends: the add returns, or it goes on to the slow
path with a reference to the per-topic map. -/
inductive CheckResult
  | returned (result : Bool)
  | slowPath (node : ℕ)
  deriving DecidableEq, Repr

/-- `add_or_update_instance` from the first lock to the unlock or the return. -/
def checkSection (c : InstanceCache) (topicName : String) (dynType : τ)
    (data : RtpsPayloadData π) : InstanceCache × CheckResult :=
  let c := extractKeyFieldNames ts c topicName dynType
  match c.keyFieldsCache[topicName]? with
  | some (_ :: _) =>
      let (c, topic) := topicInstances c topicName
      match topic.instances[data.instanceHandle]? with
      | some info =>
          if info.keyRepresentation ≠ "" then
            -- fast path: instance already cached
            let topic := { topic with
              instances := topic.instances.insert data.instanceHandle
                (info.insertWriter data.sourceGuid) }
            ({ c with instancesByTopic := c.instancesByTopic.insert topicName topic },
              .returned true)
          else (c, .slowPath topic.node)
      | none =>
          if topic.instances.size ≥ maxInstancesPerTopic then (c, .returned false)
          else (c, .slowPath topic.node)
  | _ =>
      ({ c with noKeyMetadataWarnedTopics := c.noKeyMetadataWarnedTopics.insert topicName },
        .returned false)

/-- An add that is past its first critical section and has a key to store. -/
structure PendingStore where
  topicName : String
  node : ℕ
  instanceHandle : InstanceHandle
  writerGuid : Guid
  keyJson : String
  keyJson_ne : keyJson ≠ ""

/-- The captured per-topic map is still the one held for its topic. -/
def IsLive (c : InstanceCache) (p : PendingStore) : Prop :=
  c.instancesByTopic[p.topicName]?.map TopicInstances.node = some p.node

instance (c : InstanceCache) (p : PendingStore) : Decidable (IsLive c p) :=
  inferInstanceAs (Decidable (_ = _))

/-- The entry that the second critical section writes, given the one it finds. -/
def storedInfo (p : PendingStore) (found : Option InstanceInfo) : InstanceInfo :=
  let instanceInfo := found.getD ⟨"", ∅⟩
  { instanceInfo with keyRepresentation := p.keyJson }.insertWriter p.writerGuid

/-- `add_or_update_instance` from the second lock to the end. A write through a dangling
reference goes into the destroyed map: the cache does not see it. -/
def storeSection (c : InstanceCache) (p : PendingStore) : InstanceCache :=
  match c.instancesByTopic[p.topicName]? with
  | none => c
  | some topic =>
      if topic.node = p.node then
        let topic := { topic with
          instances := topic.instances.insert p.instanceHandle
            (storedInfo p topic.instances[p.instanceHandle]?) }
        { c with instancesByTopic := c.instancesByTopic.insert p.topicName topic }
      else c

/-- The store that an add on the slow path still has to make, if its key serializes. -/
def pendingStore (topicName : String) (dynType : τ) (data : RtpsPayloadData π) (node : ℕ) :
    Option PendingStore :=
  if h : serializeKeyToJson ts dynType data.payload ≠ "" then
    some ⟨topicName, node, data.instanceHandle, data.sourceGuid, _, h⟩
  else none

/-! ## The public operations -/

/-- `add_or_update_instance`, run without interference. -/
def addOrUpdateInstance (c : InstanceCache) (topic : DdsTopic) (dynType : Option τ)
    (data : RtpsPayloadData π) : InstanceCache × Bool :=
  match dynType with
  | none => (c, false)
  | some dynType =>
      match checkSection ts c topic.topicName dynType data with
      | (c, .returned result) => (c, result)
      | (c, .slowPath node) =>
          match pendingStore ts topic.topicName dynType data node with
          | none => (c, false)
          | some p => (storeSection c p, true)

/-- `get_active_instances`. -/
def getActiveInstances (c : InstanceCache) (topicName : String) : ExtTreeSet String :=
  match c.instancesByTopic[topicName]? with
  | none => ∅
  | some topic => topic.instances.foldl (fun result _ info =>
      if info.activeWriters.isEmpty then result else result.insert info.keyRepresentation) ∅

/-- `get_key_fields`. -/
def getKeyFields (c : InstanceCache) (topicName : String) : List String :=
  c.keyFieldsCache[topicName]?.getD []

/-- The loop body of `on_writer_changed`: the entry without the writer, or nothing when
no writer is left. -/
def eraseWriter (writerGuid : Guid) (info : InstanceInfo) : Option InstanceInfo :=
  let activeWriters := info.activeWriters.erase writerGuid
  if activeWriters.isEmpty then none else some { info with activeWriters := activeWriters }

/-- `on_writer_changed`. -/
def onWriterChanged (c : InstanceCache) (writerGuid : Guid) (topicName : String)
    (active : Bool) : InstanceCache :=
  if active then c
  else match c.instancesByTopic[topicName]? with
    | none => c
    | some topic =>
        let topic := { topic with
          instances := topic.instances.filterMap (fun _ info => eraseWriter writerGuid info) }
        { c with instancesByTopic := c.instancesByTopic.insert topicName topic }

/-- `clear`. -/
def clear (c : InstanceCache) : InstanceCache :=
  { c with instancesByTopic := ∅, keyFieldsCache := ∅, noKeyMetadataWarnedTopics := ∅ }

end InstanceCache

end FastDdsSpy
