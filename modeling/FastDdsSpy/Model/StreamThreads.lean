import FastDdsSpy.Library.PastTime
import FastDdsSpy.Model.DataStreamer
import Mathlib.Logic.Function.Basic

/-! # Concurrent use of `DataStreamer`

Data threads run `add_data` in two steps while the command thread activates and
deactivates the printing of data. -/

namespace FastDdsSpy.StreamThreads

open DataStreamer PastTime

/-- A step of one of the threads. Calls of `add_data` are told apart by number. -/
inductive Step (τ π κ : Type*)
  | check (call : ℕ) (topic : DdsTopic) (data : RtpsPayloadData π)
  | invoke (call : ℕ)
  | activateAll (callback : κ)
  | activate (topicToActivate : WildcardDdsFilterTopic) (callback : κ)
  | deactivate
  | addSchema (dynamicType : τ)

/-- The streamer, and the `add_data` calls that still have to invoke. -/
structure State (τ π κ : Type*) where
  streamer : DataStreamer τ κ
  pending : ℕ → Option (PendingData τ π)

def init {τ π κ : Type*} : State τ π κ := ⟨empty, fun _ => none⟩

variable {τ π δ κ : Type*} (env : External) (ts : TypeSupport τ π δ)

/-- One step. A `check` under a number in use and an `invoke` without a pending call do
not occur: they leave the state as it is. -/
def step (s : State τ π κ) : Step τ π κ → State τ π κ
  | .check call topic data =>
      if (s.pending call).isNone then
        let (streamer, p) := checkData env s.streamer topic data
        ⟨streamer, Function.update s.pending call p⟩
      else s
  | .invoke call =>
      match s.pending call with
      | none => s
      | some p => ⟨(invokeData ts s.streamer p).1, Function.update s.pending call none⟩
  | .activateAll callback => { s with streamer := s.streamer.activateAll callback }
  | .activate topicToActivate callback =>
      { s with streamer := s.streamer.activate topicToActivate callback }
  | .deactivate => { s with streamer := s.streamer.deactivate }
  | .addSchema dynamicType => { s with streamer := s.streamer.addSchema ts dynamicType }

/-- The state after a sequence of steps, from a default-constructed streamer. -/
def exec (es : List (Step τ π κ)) : State τ π κ := run (step env ts) init es

end FastDdsSpy.StreamThreads
