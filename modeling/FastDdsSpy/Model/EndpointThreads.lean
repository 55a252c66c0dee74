import FastDdsSpy.Library.PastTime
import FastDdsSpy.Model.Controller

/-! # Concurrent use of the endpoint database

The command thread runs `update_endpoints` while the discovery thread stores records. Each
operation on the database is one step; the rest of the model is not needed here. -/

namespace FastDdsSpy

open Std PastTime

/-- The first loop of `update_endpoints`: the flags that it is going to write back. -/
def Controller.endpointFlags (env : External) (filters : ExtTreeSet String)
    (database : ExtTreeMap Guid EndpointInfoData) : List (Guid × Bool) :=
  database.toList.map (fun endpoint => (endpoint.1, endpointActive env filters endpoint.2.info))

namespace EndpointThreads

/-- A step of one of the threads. An update reads the flags under the filters of its command,
and then copies and writes one entry after the other. -/
inductive Step
  | newEndpointInfo (endpointInfo : EndpointInfoData)
  | readFlags (filters : ExtTreeSet String)
  | copy
  | write

/-- The database, the flags that still have to be written back, and the copy of the entry of
the first of them. -/
structure State where
  endpointDatabase : ExtTreeMap Guid EndpointInfoData
  flags : List (Guid × Bool)
  endpointTmp : Option EndpointInfoData

def init : State := ⟨∅, [], none⟩

/-- One step. An update that starts before the last one is done, a `copy` without a flag or
with a copy in hand and a `write` without one do not occur: they leave the state as it is. -/
def step (env : External) (s : State) : Step → State
  | .newEndpointInfo endpointInfo => { s with
      endpointDatabase := s.endpointDatabase.insert endpointInfo.info.guid endpointInfo }
  | .readFlags filters =>
      if s.flags.isEmpty then
        { s with flags := Controller.endpointFlags env filters s.endpointDatabase }
      else s
  | .copy =>
      match s.flags, s.endpointTmp with
      | flag :: _, none => { s with endpointTmp := s.endpointDatabase[flag.1]? }
      | _, _ => s
  | .write =>
      match s.flags, s.endpointTmp with
      | flag :: rest, some endpointTmp =>
          ⟨s.endpointDatabase.insert flag.1 (endpointTmp.setActive flag.2), rest, none⟩
      | _, _ => s

/-- The state after a sequence of steps, from an empty database. -/
def exec (env : External) (es : List Step) : State := run (step env) init es

end EndpointThreads

end FastDdsSpy
