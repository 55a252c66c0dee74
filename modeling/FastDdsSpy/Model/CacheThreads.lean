import FastDdsSpy.Model.InstanceCache
import FastDdsSpy.Library.PastTime
import Mathlib.Logic.Function.Basic

/-! # Concurrent use of `InstanceCache`

Any number of threads call the cache. The mutex makes each critical section atomic, so
an execution is a sequence of sections: an add is a `check`, and, when it takes the
slow path and its key serializes, a later `store` of the same call. -/

namespace FastDdsSpy.CacheThreads

open InstanceCache PastTime

/-- A critical section. Calls of `add_or_update_instance` are told apart by number; a call
with a null type returns before it locks, so it has no section. -/
inductive Step (τ π : Type*)
  | check (call : ℕ) (topic : DdsTopic) (dynType : τ) (data : RtpsPayloadData π)
  | store (call : ℕ)
  | onWriterChanged (writerGuid : Guid) (topicName : String) (active : Bool)
  | clear

/-- The cache, and the adds that are between their two sections. -/
structure State where
  cache : InstanceCache
  pending : ℕ → Option PendingStore

def init : State := ⟨empty, fun _ => none⟩

variable {τ π δ : Type*} (ts : TypeSupport τ π δ)

/-- What is left to do for an add after its check section. -/
def afterCheck (topicName : String) (dynType : τ) (data : RtpsPayloadData π) :
    CheckResult → Option PendingStore
  | .returned _ => none
  | .slowPath node => pendingStore ts topicName dynType data node

/-- One section. A `check` under a number in use and a `store` without a pending add do
not occur: they leave the state as it is. -/
def step (s : State) : Step τ π → State
  | .check call topic dynType data =>
      if s.pending call = none then
        let (cache, result) := checkSection ts s.cache topic.topicName dynType data
        ⟨cache, Function.update s.pending call
          (afterCheck ts topic.topicName dynType data result)⟩
      else s
  | .store call =>
      match s.pending call with
      | none => s
      | some p => ⟨storeSection s.cache p, Function.update s.pending call none⟩
  | .onWriterChanged writerGuid topicName active =>
      { s with cache := s.cache.onWriterChanged writerGuid topicName active }
  | .clear => { s with cache := s.cache.clear }

/-- The state after a sequence of sections, from an empty cache. -/
def exec (es : List (Step τ π)) : State := run (step ts) init es

end FastDdsSpy.CacheThreads
