import FastDdsSpy.Verification.DataStreamer.Threads
import FastDdsSpy.Verification.TopicRateCalculator.Counters

/-! # Which samples are delivered

With the operations executed one at a time, an `add_data` delivers its sample by the mode
set last and by the type registered last under the name of its type. -/

namespace FastDdsSpy.DataStreamer

open Std PastTime
open StreamThreads (Mode InMode)

variable {τ π δ κ : Type*} {env : External} {ts : TypeSupport τ π δ}

/-! ## Sequences of calls -/

/-- A call of one of the operations that change the streamer. -/
inductive Call (τ π κ : Type*)
  | activateAll (callback : κ)
  | activate (topicToActivate : WildcardDdsFilterTopic) (callback : κ)
  | deactivate
  | addSchema (dynamicType : τ)
  | addData (topic : DdsTopic) (data : RtpsPayloadData π)

namespace Call

/-- What an activation or a deactivation asks for. -/
def mode : Call τ π κ → Option (Mode κ)
  | activateAll callback => some (.all callback)
  | activate topicToActivate callback => some (.topic topicToActivate callback)
  | deactivate => some .off
  | _ => none

/-- The type of this name that a call registers. -/
def typeNamed (ts : TypeSupport τ π δ) (typeName : String) : Call τ π κ → Option τ
  | addSchema dynamicType => if ts.getName dynamicType = typeName then some dynamicType else none
  | _ => none

end Call

/-- The streamer after a call. -/
def apply (env : External) (ts : TypeSupport τ π δ) (ds : DataStreamer τ κ) :
    Call τ π κ → DataStreamer τ κ
  | .activateAll callback => ds.activateAll callback
  | .activate topicToActivate callback => ds.activate topicToActivate callback
  | .deactivate => ds.deactivate
  | .addSchema dynamicType => ds.addSchema ts dynamicType
  | .addData topic data => (addData env ts ds topic data).1

/-- The streamer after a sequence of calls, from a default-constructed one. -/
def exec (env : External) (ts : TypeSupport τ π δ) (calls : List (Call τ π κ)) :
    DataStreamer τ κ :=
  run (apply env ts) empty calls

@[simp] theorem exec_concat (calls : List (Call τ π κ)) (call : Call τ π κ) :
    exec env ts (calls ++ [call]) = apply env ts (exec env ts calls) call := by
  simp [exec]

/-- The mode set last; nothing is delivered at the start. -/
def currentMode (calls : List (Call τ π κ)) : Mode κ := (latest Call.mode calls).getD .off

theorem currentMode_concat (calls : List (Call τ π κ)) (call : Call τ π κ) :
    currentMode (calls ++ [call]) = call.mode.getD (currentMode calls) := by
  rw [currentMode, latest_concat, currentMode]
  cases call.mode <;> rfl

/-- The type registered last under this name. -/
def latestType (ts : TypeSupport τ π δ) (typeName : String) (calls : List (Call τ π κ)) :
    Option τ :=
  latest (Call.typeNamed ts typeName) calls

theorem latestType_concat (typeName : String) (calls : List (Call τ π κ)) (call : Call τ π κ) :
    latestType ts typeName (calls ++ [call]) =
      (call.typeNamed ts typeName).or (latestType ts typeName calls) :=
  latest_concat _ calls call

/-! ## What the streamer remembers -/

/-- `add_data` touches the counters and the instance cache only. -/
theorem addData_fst (env : External) (ts : TypeSupport τ π δ) (ds : DataStreamer τ κ)
    (topic : DdsTopic) (data : RtpsPayloadData π) : ∃ instanceCache,
      (addData env ts ds topic data).1 = { ds with
        toTopicRateCalculator := ds.toTopicRateCalculator.addData topic data
        instanceCache := instanceCache } := by
  rw [addData_eq, checkData_fst]
  cases ds.typesDiscovered[topic.typeName]? with
  | none => exact ⟨ds.instanceCache, rfl⟩
  | some dynType => exact ⟨_, invokeData_fst ts _ _⟩

theorem inMode_exec (env : External) (ts : TypeSupport τ π δ) (calls : List (Call τ π κ)) :
    InMode env (exec env ts calls) (currentMode calls) := by
  induction calls using List.reverseRecOn with
  | nil => exact ⟨rfl, fun topic => rfl⟩
  | append_singleton calls call ih =>
      rw [exec_concat, currentMode_concat]
      cases call with
      | activateAll callback => exact ⟨rfl, fun topic => rfl⟩
      | activate filter callback => exact ⟨rfl, fun topic => rfl⟩
      | deactivate => exact ⟨rfl, fun topic => rfl⟩
      | addSchema dynamicType => exact ⟨ih.callback_eq, ih.selects_eq⟩
      | addData topic data =>
          obtain ⟨instanceCache, hfst⟩ := addData_fst env ts (exec env ts calls) topic data
          rw [apply, hfst]
          exact ⟨ih.callback_eq, ih.selects_eq⟩

theorem typesDiscovered_exec (env : External) (ts : TypeSupport τ π δ)
    (calls : List (Call τ π κ)) (typeName : String) :
    (exec env ts calls).typesDiscovered[typeName]? = latestType ts typeName calls := by
  induction calls using List.reverseRecOn with
  | nil => simp [exec, empty, latestType]
  | append_singleton calls call ih =>
      rw [exec_concat, latestType_concat, ← ih]
      cases call with
      | addSchema dynamicType =>
          by_cases hn : ts.getName dynamicType = typeName
          · simp [apply, addSchema, Call.typeNamed, hn]
          · simp [apply, addSchema, Call.typeNamed, ExtTreeMap.getElem?_insert, hn]
      | addData topic data =>
          obtain ⟨instanceCache, hfst⟩ := addData_fst env ts (exec env ts calls) topic data
          simp [apply, hfst, Call.typeNamed]
      | activateAll | activate | deactivate =>
          simp [apply, activateAll, activate, deactivate, Call.typeNamed]

/-- The sample counter of a topic; a topic without an entry has had no sample. -/
def sampleCount (ds : DataStreamer τ κ) (topic : DdsTopic) : UInt32 :=
  (ds.dataByTopic[topic]?.map DataRateInfo.dataReceived).getD 0

theorem sampleCount_addData (env : External) (ts : TypeSupport τ π δ) (ds : DataStreamer τ κ)
    (topic topic' : DdsTopic) (data : RtpsPayloadData π) :
    (addData env ts ds topic data).1.sampleCount topic' =
      if DdsTopic.cmp topic topic' = .eq then ds.sampleCount topic' + 1
      else ds.sampleCount topic' := by
  obtain ⟨instanceCache, hfst⟩ := addData_fst env ts ds topic data
  rw [hfst, sampleCount, TopicRateCalculator.getElem?_addData]
  split
  · cases hentry : ds.dataByTopic[topic']? <;>
      simp [sampleCount, hentry, DataRateInfo.addSample, DataRateInfo.initial]
  · rfl

/-! ## The delivery -/

theorem addData_snd (env : External) (ts : TypeSupport τ π δ) {ds : DataStreamer τ κ}
    {mode : Mode κ} (h : InMode env ds mode) (topic : DdsTopic) (data : RtpsPayloadData π) :
    (addData env ts ds topic data).2 =
      match mode.callback, ds.typesDiscovered[topic.typeName]? with
      | some callback, some dynType =>
          if mode.selects env topic then .called callback topic dynType data else .none
      | _, _ => .none := by
  rw [addData_eq, checkData_fst]
  cases ds.typesDiscovered[topic.typeName]? with
  | none => cases mode.callback <;> rfl
  | some dynType =>
      simp only [h.selects_eq, ← h.callback_eq]
      cases hsel : mode.selects env topic with
      | false => cases ds.callback <;> simp [invokeData]
      | true =>
          obtain ⟨callback, hcb⟩ := Mode.exists_callback hsel
          have hds : ds.callback = some callback := h.callback_eq.trans hcb
          simp [invokeData, hds]

/-- What an `add_data` does after a sequence of calls: whether it calls back, with what, and
what it changes. -/
structure AddDataSpec (env : External) (ts : TypeSupport τ π δ) (calls : List (Call τ π κ))
    (topic : DdsTopic) (data : RtpsPayloadData π) : Prop where
  calls_iff : (addData env ts (exec env ts calls) topic data).2 ≠ .none ↔
    (currentMode calls).selects env topic = true ∧ latestType ts topic.typeName calls ≠ none
  called_eq : ∀ dynType, (currentMode calls).selects env topic = true →
    latestType ts topic.typeName calls = some dynType →
    ∃ callback, (currentMode calls).callback = some callback ∧
      (addData env ts (exec env ts calls) topic data).2 = .called callback topic dynType data
  instanceCache_eq : latestType ts topic.typeName calls = none →
    (addData env ts (exec env ts calls) topic data).1.instanceCache =
      (exec env ts calls).instanceCache
  sampleCount_eq : ∀ topic', (addData env ts (exec env ts calls) topic data).1.sampleCount topic' =
    if DdsTopic.cmp topic topic' = .eq then (exec env ts calls).sampleCount topic' + 1
    else (exec env ts calls).sampleCount topic'

/-- After every sequence of calls, exactly the samples of a selected topic with a registered
type are delivered, and every sample is counted. -/
theorem addData_delivers_selected (env : External) (ts : TypeSupport τ π δ)
    (calls : List (Call τ π κ)) (topic : DdsTopic) (data : RtpsPayloadData π) :
    AddDataSpec env ts calls topic data := by
  have hsnd := addData_snd env ts (inMode_exec env ts calls) topic data
  rw [typesDiscovered_exec] at hsnd
  refine ⟨?_, ?_, ?_, fun topic' => sampleCount_addData env ts _ topic topic' data⟩
  · rw [hsnd]
    cases hsel : (currentMode calls).selects env topic with
    | false =>
        cases (currentMode calls).callback <;>
          cases latestType ts topic.typeName calls <;> simp
    | true =>
        obtain ⟨callback, hcb⟩ := Mode.exists_callback hsel
        cases hty : latestType ts topic.typeName calls <;> simp [hcb]
  · intro dynType hsel hty
    obtain ⟨callback, hcb⟩ := Mode.exists_callback hsel
    refine ⟨callback, hcb, ?_⟩
    rw [hsnd]
    simp [hcb, hty, hsel]
  · intro hty
    rw [instanceCache_addData, typesDiscovered_exec, hty]

end FastDdsSpy.DataStreamer
