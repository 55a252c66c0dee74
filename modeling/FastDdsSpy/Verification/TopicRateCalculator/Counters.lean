import FastDdsSpy.Library.PastTime
import FastDdsSpy.Model.TopicRateCalculator
import FastDdsSpy.Verification.Instances

/-! # The sample counters

The entry of a topic is a fold over the samples of that topic. The counter is a machine
word and its value `0` also means that there is no sample yet, so after `2 ^ 32` samples
the entry starts again. -/

namespace FastDdsSpy.TopicRateCalculator

open Std PastTime

variable {π : Type*}

/-! ## Histories -/

/-- The counters after a sequence of `add_data` calls. -/
def exec (calls : List (DdsTopic × RtpsPayloadData π)) : TopicRateCalculator :=
  run (fun rates call => rates.addData call.1 call.2) empty calls

@[simp] theorem exec_concat (calls : List (DdsTopic × RtpsPayloadData π))
    (call : DdsTopic × RtpsPayloadData π) :
    exec (calls ++ [call]) = (exec calls).addData call.1 call.2 := by
  simp [exec]

/-- The samples of a topic, that is, those whose topic has its name and type name. -/
def samplesOf (topic : DdsTopic) (calls : List (DdsTopic × RtpsPayloadData π)) :
    List (RtpsPayloadData π) :=
  (calls.filter (fun call => DdsTopic.cmp call.1 topic == .eq)).map Prod.snd

theorem samplesOf_concat (topic : DdsTopic) (calls : List (DdsTopic × RtpsPayloadData π))
    (call : DdsTopic × RtpsPayloadData π) : samplesOf topic (calls ++ [call]) =
      if DdsTopic.cmp call.1 topic = .eq then samplesOf topic calls ++ [call.2]
      else samplesOf topic calls := by
  by_cases h : DdsTopic.cmp call.1 topic = .eq
  · simp [samplesOf, List.filter_append, h]
  · simp [samplesOf, List.filter_append, h]

/-- Any list of samples is that of some calls. -/
theorem samplesOf_map_pair (topic : DdsTopic) (samples : List (RtpsPayloadData π)) :
    samplesOf topic (samples.map (fun data => (topic, data))) = samples := by
  have hself : (DdsTopic.cmp topic topic == .eq) = true := by
    rw [beq_iff_eq]
    exact ReflCmp.compare_self
  simp [samplesOf, List.filter_map, Function.comp_def, hself]

/-! ## The entry of a topic -/

theorem getElem?_addData (rates : TopicRateCalculator) (topic topic' : DdsTopic)
    (data : RtpsPayloadData π) : (rates.addData topic data).dataByTopic[topic']? =
      if DdsTopic.cmp topic topic' = .eq then
        some ((rates.dataByTopic[topic']?.getD .initial).addSample data.sourceTimestamp)
      else rates.dataByTopic[topic']? := by
  simp only [addData, ExtTreeMap.getElem?_insert]
  split
  · rename_i h
    rw [ExtTreeMap.getElem?_congr h]
  · rfl

/-- The entry after the samples of its topic, starting from no sample. -/
def entryOf (samples : List (RtpsPayloadData π)) : DataRateInfo :=
  samples.foldl (fun info data => info.addSample data.sourceTimestamp) .initial

theorem entryOf_concat (samples : List (RtpsPayloadData π)) (data : RtpsPayloadData π) :
    entryOf (samples ++ [data]) = (entryOf samples).addSample data.sourceTimestamp := by
  simp [entryOf]

theorem getElem?_exec (calls : List (DdsTopic × RtpsPayloadData π)) (topic : DdsTopic) :
    (exec calls).dataByTopic[topic]? =
      if samplesOf topic calls = [] then none else some (entryOf (samplesOf topic calls)) := by
  induction calls using List.reverseRecOn with
  | nil => simp [exec, empty, samplesOf]
  | append_singleton calls call ih =>
      rw [exec_concat, getElem?_addData, samplesOf_concat, ih]
      by_cases h : DdsTopic.cmp call.1 topic = .eq
      · have hne : samplesOf topic calls ++ [call.2] ≠ [] := by simp
        rw [if_pos h, if_pos h, if_neg hne, entryOf_concat]
        by_cases hnil : samplesOf topic calls = []
        · simp [hnil, entryOf]
        · simp [hnil]
      · rw [if_neg h, if_neg h]

theorem dataReceived_entryOf (samples : List (RtpsPayloadData π)) :
    (entryOf samples).dataReceived = UInt32.ofNat samples.length := by
  induction samples using List.reverseRecOn with
  | nil => rfl
  | append_singleton samples data ih =>
      rw [entryOf_concat, DataRateInfo.addSample, ih]
      simp [UInt32.ofNat_add]

theorem lastDataTime_entryOf (samples : List (RtpsPayloadData π)) (data : RtpsPayloadData π) :
    (entryOf (samples ++ [data])).lastDataTime = data.sourceTimestamp := by
  rw [entryOf_concat, DataRateInfo.addSample]

/-- The first time is that of the sample which found the counter at `0` last: one in
every `2 ^ 32` samples. -/
theorem firstDataTime_entryOf (samples : List (RtpsPayloadData π)) (hne : samples ≠ []) :
    samples[2 ^ 32 * ((samples.length - 1) / 2 ^ 32)]?.map RtpsPayloadData.sourceTimestamp =
      some (entryOf samples).firstDataTime := by
  induction samples using List.reverseRecOn with
  | nil => exact absurd rfl hne
  | append_singleton samples data ih =>
      have hzero : UInt32.ofNat samples.length = 0 ↔ 2 ^ 32 ∣ samples.length := by
        rw [← UInt32.toNat_inj]
        simp [UInt32.toNat_ofNat', Nat.dvd_iff_mod_eq_zero]
      rw [entryOf_concat, DataRateInfo.addSample, dataReceived_entryOf]
      by_cases hdvd : 2 ^ 32 ∣ samples.length
      · have hindex : 2 ^ 32 * (((samples ++ [data]).length - 1) / 2 ^ 32) = samples.length := by
          simpa using Nat.mul_div_cancel' hdvd
        rw [hindex, if_pos (hzero.mpr hdvd)]
        simp
      · have hnil : samples ≠ [] := by
          rintro rfl
          exact hdvd (by simp)
        have hindex : 2 ^ 32 * (((samples ++ [data]).length - 1) / 2 ^ 32) =
            2 ^ 32 * ((samples.length - 1) / 2 ^ 32) := by
          simp only [List.length_append, List.length_singleton]
          omega
        have hlt : 2 ^ 32 * ((samples.length - 1) / 2 ^ 32) < samples.length := by
          have hpos := List.length_pos_iff.mpr hnil
          omega
        rw [hindex, List.getElem?_append_left hlt, ih hnil, if_neg (fun h => hdvd (hzero.mp h))]

/-! ## The whole history -/

/-- The entry has the number of the samples, the time of the first and that of the last. -/
structure Describes (info : DataRateInfo) (samples : List (RtpsPayloadData π)) : Prop where
  dataReceived_eq : info.dataReceived.toNat = samples.length
  firstDataTime_eq : samples.head?.map RtpsPayloadData.sourceTimestamp = some info.firstDataTime
  lastDataTime_eq : samples.getLast?.map RtpsPayloadData.sourceTimestamp = some info.lastDataTime

theorem describes_entryOf_iff {samples : List (RtpsPayloadData π)} (hne : samples ≠ []) :
    Describes (entryOf samples) samples ↔ samples.length < 2 ^ 32 := by
  constructor
  · intro h
    rw [← h.dataReceived_eq]
    exact UInt32.toNat_lt _
  · intro hlt
    have hfirst := firstDataTime_entryOf samples hne
    have hindex : 2 ^ 32 * ((samples.length - 1) / 2 ^ 32) = 0 := by omega
    rw [hindex, ← List.head?_eq_getElem?] at hfirst
    refine ⟨?_, hfirst, ?_⟩
    · rw [dataReceived_entryOf, UInt32.toNat_ofNat']
      exact Nat.mod_eq_of_lt hlt
    · rcases List.eq_nil_or_concat samples with rfl | ⟨front, data, rfl⟩
      · exact absurd rfl hne
      · rw [List.concat_eq_append, lastDataTime_entryOf]
        simp

/-- The entry of every topic with a sample describes all its samples, and a sample of
another topic leaves it alone. -/
def CountersDescribe (calls : List (DdsTopic × RtpsPayloadData π)) : Prop :=
  ∀ topic, samplesOf topic calls ≠ [] →
    (∃ info, (exec calls).dataByTopic[topic]? = some info ∧
      Describes info (samplesOf topic calls)) ∧
    ∀ (other : DdsTopic) (data : RtpsPayloadData π), DdsTopic.cmp other topic ≠ .eq →
      ((exec calls).addData other data).dataByTopic[topic]? = (exec calls).dataByTopic[topic]?

theorem entry_describes_iff {calls : List (DdsTopic × RtpsPayloadData π)} {topic : DdsTopic}
    (hne : samplesOf topic calls ≠ []) :
    (∃ info, (exec calls).dataByTopic[topic]? = some info ∧
      Describes info (samplesOf topic calls)) ↔ (samplesOf topic calls).length < 2 ^ 32 := by
  rw [getElem?_exec, if_neg hne, ← describes_entryOf_iff hne]
  simp

/-- The counters describe the whole history if and only if no topic has had `2 ^ 32`
samples. -/
theorem countersDescribe_iff_fits (calls : List (DdsTopic × RtpsPayloadData π)) :
    CountersDescribe calls ↔ ∀ topic, (samplesOf topic calls).length < 2 ^ 32 := by
  refine forall_congr' fun topic => ?_
  by_cases hne : samplesOf topic calls = []
  · simp [hne]
  · constructor
    · intro h
      exact (entry_describes_iff hne).mp (h hne).1
    · intro hlt _
      refine ⟨(entry_describes_iff hne).mpr hlt, fun other data hother => ?_⟩
      rw [getElem?_addData, if_neg hother]

/-- A sample at time `0` and `n` more at time `1`. -/
def lateSamples (n : ℕ) : List (RtpsPayloadData Unit) :=
  ⟨⟨1, 2⟩, 7, 0, ()⟩ :: List.replicate n ⟨⟨1, 2⟩, 7, 1, ()⟩

theorem sourceTimestamp_lateSamples {n i : ℕ} (hi : i < n) :
    (lateSamples n)[i + 1]?.map RtpsPayloadData.sourceTimestamp = some 1 := by
  rw [lateSamples, List.getElem?_cons_succ, List.getElem?_replicate, if_pos hi]
  rfl

theorem lastDataTime_lateSamples {n : ℕ} (hn : 0 < n) :
    (entryOf (lateSamples n)).lastDataTime = 1 := by
  obtain ⟨m, rfl⟩ := Nat.exists_eq_succ_of_ne_zero hn.ne'
  rw [lateSamples, List.replicate_succ', ← List.cons_append, lastDataTime_entryOf]

/-- The counter wraps around, and the first of the samples that it then counts anew is
taken for the first of all. -/
theorem not_countersDescribe_lateSamples :
    (exec ((lateSamples (2 ^ 32)).map (fun data => (keyedTopic, data)))).dataByTopic[keyedTopic]? =
        some ⟨1, 1, 1⟩ ∧
      ¬ CountersDescribe ((lateSamples (2 ^ 32)).map (fun data => (keyedTopic, data))) := by
  have hne : ∀ n, lateSamples n ≠ [] := fun n => List.cons_ne_nil _ _
  have hlength : ∀ n, (lateSamples n).length = n + 1 := by simp [lateSamples]
  constructor
  · have hcount : (entryOf (lateSamples (2 ^ 32))).dataReceived = 1 := by
      rw [dataReceived_entryOf, hlength]
      rfl
    have hfirst : (entryOf (lateSamples (2 ^ 32))).firstDataTime = 1 := by
      have hsome := firstDataTime_entryOf (lateSamples (2 ^ 32)) (hne _)
      have hindex : 2 ^ 32 * (((lateSamples (2 ^ 32)).length - 1) / 2 ^ 32) = 2 ^ 32 - 1 + 1 := by
        rw [hlength]
        omega
      rw [hindex, sourceTimestamp_lateSamples (by omega)] at hsome
      exact (Option.some.inj hsome).symm
    have hlast : (entryOf (lateSamples (2 ^ 32))).lastDataTime = 1 :=
      lastDataTime_lateSamples (by omega)
    have hentry : ∀ info : DataRateInfo, info.dataReceived = 1 → info.firstDataTime = 1 →
        info.lastDataTime = 1 → some info = some ⟨1, 1, 1⟩ := by
      rintro ⟨_, _, _⟩ rfl rfl rfl
      rfl
    rw [getElem?_exec, samplesOf_map_pair, if_neg (hne _)]
    exact hentry _ hcount hfirst hlast
  · intro h
    have hnonempty : samplesOf keyedTopic
        ((lateSamples (2 ^ 32)).map (fun data => (keyedTopic, data))) ≠ [] := by
      rw [samplesOf_map_pair]
      exact hne _
    have hlt := (entry_describes_iff hnonempty).mp (h keyedTopic hnonempty).1
    rw [samplesOf_map_pair, hlength] at hlt
    omega

end FastDdsSpy.TopicRateCalculator
