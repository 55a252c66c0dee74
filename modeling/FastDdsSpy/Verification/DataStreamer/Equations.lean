import FastDdsSpy.Model.DataStreamer

/-! # Computation rules for the data streamer

`add_data` changes the sample counters in its first half and the instance cache in its
second; the mode and the registered types only change through the other operations. -/

namespace FastDdsSpy.DataStreamer

open Std

variable {τ π δ κ : Type*} (env : External) (ts : TypeSupport τ π δ) (ds : DataStreamer τ κ)

section CheckData

variable (topic : DdsTopic) (data : RtpsPayloadData π)

theorem checkData_fst : (checkData env ds topic data).1 =
    { ds with toTopicRateCalculator := ds.toTopicRateCalculator.addData topic data } := by
  cases h : ds.typesDiscovered[topic.typeName]? <;> simp [checkData, h]

theorem checkData_snd : (checkData env ds topic data).2 =
    ds.typesDiscovered[topic.typeName]?.map (fun ty => ⟨topic, data, ty, ds.activated &&
      (ds.activatedAll || env.topicMatches ds.activatedTopic topic)⟩) := by
  cases h : ds.typesDiscovered[topic.typeName]? <;> simp [checkData, h]

end CheckData

section InvokeData

variable (p : PendingData τ π)

theorem invokeData_fst : (invokeData ts ds p).1 = { ds with instanceCache :=
    (ds.instanceCache.addOrUpdateInstance ts p.topic (some p.dynType) p.data).1 } := by
  unfold invokeData
  split
  · cases ds.callback <;> simp
  · rfl

/-- The callback that is called is the one the streamer has when the call invokes. -/
theorem invokeData_snd_eq_called {callback : κ} (h : p.shouldCallCallback = true) :
    (invokeData ts ds p).2 = .called callback p.topic p.dynType p.data ↔
      ds.callback = some callback := by
  cases hc : ds.callback <;> simp [invokeData, h, hc]

end InvokeData

section AddData

variable (topic : DdsTopic) (data : RtpsPayloadData π)

/-- `add_data` counts the sample, and has more to do if its type is registered. -/
theorem addData_eq : addData env ts ds topic data =
    match ds.typesDiscovered[topic.typeName]? with
    | none => ((checkData env ds topic data).1, .none)
    | some dynType => invokeData ts (checkData env ds topic data).1 ⟨topic, data, dynType,
        ds.activated && (ds.activatedAll || env.topicMatches ds.activatedTopic topic)⟩ := by
  cases hty : ds.typesDiscovered[topic.typeName]? <;> simp [addData, checkData, hty]

/-- Without a registered type the cache is left alone. -/
theorem instanceCache_addData : (addData env ts ds topic data).1.instanceCache =
    match ds.typesDiscovered[topic.typeName]? with
    | none => ds.instanceCache
    | some dynType => (ds.instanceCache.addOrUpdateInstance ts topic (some dynType) data).1 := by
  rw [addData_eq, checkData_fst]
  cases ds.typesDiscovered[topic.typeName]? with
  | none => rfl
  | some dynType => simp [invokeData_fst]

end AddData

end FastDdsSpy.DataStreamer
