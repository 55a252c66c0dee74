import FastDdsSpy.Model.DataStreamer

/-! # `SpyModel`

`SafeDatabase::add_or_modify` inserts an entry or overwrites the one of the same key. -/

namespace FastDdsSpy

open Std

structure NetworkDatabase where
  participantDatabase : ExtTreeMap Guid ParticipantInfo
  endpointDatabase : ExtTreeMap Guid EndpointInfoData

structure SpyModel (τ κ : Type*) extends NetworkDatabase, DataStreamer τ κ where
  ros2Types : Bool

namespace SpyModel

variable {τ κ : Type*}

def empty (ros2Types : Bool) : SpyModel τ κ where
  participantDatabase := ∅
  endpointDatabase := ∅
  toDataStreamer := .empty
  ros2Types := ros2Types

/-! ## `SpyParticipant` -/

/-- `new_participant_info_`. -/
def newParticipantInfo (m : SpyModel τ κ) (info : ParticipantInfo) : SpyModel τ κ :=
  { m with participantDatabase := m.participantDatabase.insert info.guid info }

/-- `new_endpoint_info_`. -/
def newEndpointInfo (m : SpyModel τ κ) (endpointInfo : EndpointInfoData) : SpyModel τ κ :=
  let info := endpointInfo.info
  let m := { m with endpointDatabase := m.endpointDatabase.insert info.guid endpointInfo }
  if info.isWriter then
    { m with toDataStreamer :=
      m.toDataStreamer.onWriterDiscovered info.guid info.topic.topicName info.active }
  else m

end SpyModel

end FastDdsSpy
