import Std.Data.ExtTreeMap
import Std.Data.ExtTreeSet
import Mathlib.Algebra.Order.Floor.Defs
import Mathlib.Data.Rat.Floor

/-! # Data types of the spy

`std::map` and `std::set` are the extensional ordered trees of `Std`; `std::string`
is `String`. -/

namespace FastDdsSpy

open Std

/-- RTPS identifier of an entity: the prefix of its participant and its entity id.
The C++ type compares the two byte arrays in this order. -/
structure Guid where
  guidPrefix : BitVec 96
  entityId : BitVec 32
  deriving DecidableEq, Repr

instance : Ord Guid where
  compare := compareLex (compareOn Guid.guidPrefix) (compareOn Guid.entityId)

instance : TransOrd Guid :=
  inferInstanceAs (TransCmp (compareLex (compareOn Guid.guidPrefix) (compareOn Guid.entityId)))

instance : LawfulEqOrd Guid where
  eq_of_compare := by
    intro a b h
    obtain ⟨hp, he⟩ := Ordering.then_eq_eq.mp (h :
      (compare a.guidPrefix b.guidPrefix).then (compare a.entityId b.entityId) = .eq)
    have hprefix : a.guidPrefix = b.guidPrefix := LawfulEqCmp.eq_of_compare hp
    have hentity : a.entityId = b.entityId := LawfulEqCmp.eq_of_compare he
    cases a
    cases b
    simp_all

/-- `Guid::is_valid`: neither half is the unknown one. -/
def Guid.isValid (guid : Guid) : Bool := guid.guidPrefix != 0 && guid.entityId != 0

/-- The default-constructed `Guid`, which is not valid. -/
instance : Inhabited Guid := ⟨⟨0, 0⟩⟩

abbrev InstanceHandle := BitVec 128

instance : TransOrd InstanceHandle := inferInstanceAs (TransOrd (BitVec 128))

/-- A time stamp in seconds. -/
abbrev DataTime := ℚ

/-- `DataTime::seconds()`: the whole seconds of a time stamp. -/
def DataTime.seconds (time : DataTime) : ℤ := ⌊time⌋

inductive DurabilityKind
  | volatile | transientLocal | transient | persistent
  deriving DecidableEq, Repr

inductive ReliabilityKind
  | bestEffort | reliable
  deriving DecidableEq, Repr

structure TopicQoS where
  durabilityQos : DurabilityKind
  reliabilityQos : ReliabilityKind
  deriving DecidableEq, Repr

structure DdsTopic where
  topicName : String
  typeName : String
  topicQos : TopicQoS
  deriving DecidableEq, Repr

/-- Topics are ordered by name and type name only. -/
def DdsTopic.cmp : DdsTopic → DdsTopic → Ordering :=
  compareLex (compareOn DdsTopic.topicName) (compareOn DdsTopic.typeName)

instance : TransCmp DdsTopic.cmp :=
  inferInstanceAs (TransCmp (compareLex (compareOn DdsTopic.topicName)
    (compareOn DdsTopic.typeName)))

/-- `WildcardDdsFilterTopic`. A field that was never set matches everything. -/
structure WildcardDdsFilterTopic where
  topicName : Option String := none
  typeName : Option String := none
  deriving DecidableEq, Repr

inductive EndpointKind
  | invalid | writer | reader
  deriving DecidableEq, Repr

/-- `EndpointInfo`, that is, `ddspipe::core::types::Endpoint`. -/
structure EndpointInfo where
  guid : Guid
  kind : EndpointKind
  topic : DdsTopic
  active : Bool
  specificPartitions : ExtTreeMap String String

def EndpointInfo.isWriter (info : EndpointInfo) : Bool := info.kind == .writer

def EndpointInfo.isReader (info : EndpointInfo) : Bool := info.kind == .reader

structure EndpointInfoData where
  info : EndpointInfo
  typeIdl : String

/-- The entry with its active flag overwritten. -/
def EndpointInfoData.setActive (data : EndpointInfoData) (active : Bool) : EndpointInfoData :=
  { data with info := { data.info with active := active } }

namespace EndpointInfoData

variable (data : EndpointInfoData) (active : Bool)

@[simp] theorem setActive_active : (data.setActive active).info.active = active := rfl

@[simp] theorem setActive_guid : (data.setActive active).info.guid = data.info.guid := rfl

@[simp] theorem setActive_kind : (data.setActive active).info.kind = data.info.kind := rfl

@[simp] theorem setActive_topic : (data.setActive active).info.topic = data.info.topic := rfl

@[simp] theorem setActive_specificPartitions :
    (data.setActive active).info.specificPartitions = data.info.specificPartitions := rfl

@[simp] theorem setActive_typeIdl : (data.setActive active).typeIdl = data.typeIdl := rfl

@[simp] theorem setActive_self : data.setActive data.info.active = data := rfl

@[simp] theorem setActive_setActive (active' : Bool) :
    (data.setActive active).setActive active' = data.setActive active' := rfl

end EndpointInfoData

structure ParticipantInfo where
  name : String
  guid : Guid
  active : Bool
  deriving DecidableEq, Repr

/-- A sample as it comes out of the pipe, with a payload of type `π`. -/
structure RtpsPayloadData (π : Type*) where
  sourceGuid : Guid
  instanceHandle : InstanceHandle
  sourceTimestamp : DataTime
  payload : π

/-- A member of a dynamic type; `isKey` is absent when `get_descriptor` fails. -/
structure DynamicTypeMember where
  name : String
  isKey : Option Bool

/-- The dynamic-types API of Fast DDS that the spy calls: types `τ`, payloads `π`
and dynamic data `δ`. A call that can fail returns an `Option`. -/
structure TypeSupport (τ π δ : Type*) where
  getName : τ → String
  getAllMembers : τ → Option (List DynamicTypeMember)
  deserialize : τ → π → Option δ
  copyKeyMembers : τ → δ → δ
  jsonSerialize : δ → Option String

/-- The functions of `cpp_utils` and `ddspipe_core` that the spy calls. -/
structure External where
  matchPattern : String → String → Bool
  topicMatches : WildcardDdsFilterTopic → DdsTopic → Bool
  demangleIfRosTopic : String → String
  demangleIfRosType : String → String
  guidToString : Guid → String
  guidOfString : String → Guid

end FastDdsSpy
