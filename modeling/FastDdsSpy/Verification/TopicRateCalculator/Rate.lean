import FastDdsSpy.Library.Arrangements
import FastDdsSpy.Verification.TopicRateCalculator.Counters

/-! # The rate

The rate is the counter over the whole seconds between two samples: the one that found the
counter at `0` last, and the last one to arrive. -/

namespace FastDdsSpy.TopicRateCalculator

open Std Arrangements

variable {π : Type*}

/-- The whole seconds of the source time stamp. -/
abbrev secondsOf (data : RtpsPayloadData π) : ℤ := data.sourceTimestamp.seconds

/-- The position of the sample that found the counter at `0` last, among this many. -/
def firstIndex (count : ℕ) : ℕ := 2 ^ 32 * ((count - 1) / 2 ^ 32)

/-- The rate of a counter over the seconds between two samples. -/
def rateBetween (count : ℕ) (first last : RtpsPayloadData π) : WithTop ℚ :=
  if secondsOf last - secondsOf first = 0 then ⊤
  else ↑(((count % 2 ^ 32 : ℕ) : ℚ) / (secondsOf last - secondsOf first : ℤ))

/-- The rate of a topic with samples, from the two that the entry remembers. -/
theorem getTopicRate_exec {calls : List (DdsTopic × RtpsPayloadData π)} {topic : DdsTopic}
    {samples : List (RtpsPayloadData π)} {first last : RtpsPayloadData π}
    (hsamples : samplesOf topic calls = samples)
    (hfirst : samples[firstIndex samples.length]? = some first)
    (hlast : samples.getLast? = some last) :
    (exec calls).getTopicRate topic = rateBetween samples.length first last := by
  have hne : samples ≠ [] := by
    intro hnil
    simp [hnil] at hlast
  have hfirstTime := firstDataTime_entryOf samples hne
  rw [← firstIndex, hfirst, Option.map_some, Option.some.injEq] at hfirstTime
  have hlastTime : (entryOf samples).lastDataTime = last.sourceTimestamp := by
    rcases List.eq_nil_or_concat samples with rfl | ⟨front, data, rfl⟩
    · exact absurd rfl hne
    · rw [List.concat_eq_append] at hlast ⊢
      rw [lastDataTime_entryOf, ← Option.some.inj (List.getLast?_concat.symm.trans hlast)]
  have hcount : (entryOf samples).dataReceived.toNat = samples.length % 2 ^ 32 := by
    rw [dataReceived_entryOf, UInt32.toNat_ofNat']
  rw [getTopicRate, getElem?_exec, hsamples, if_neg hne]
  simp only [hlastTime, ← hfirstTime, hcount]
  rfl

theorem getTopicRate_exec_of_nil {calls : List (DdsTopic × RtpsPayloadData π)} {topic : DdsTopic}
    (h : samplesOf topic calls = []) : (exec calls).getTopicRate topic = 0 := by
  rw [getTopicRate, getElem?_exec, if_pos h]

/-- A topic with samples has the two that its entry remembers. -/
theorem exists_first_last {samples : List (RtpsPayloadData π)} (hne : samples ≠ []) :
    ∃ first last, samples[firstIndex samples.length]? = some first ∧
      samples.getLast? = some last := by
  have hpos := List.length_pos_iff.mpr hne
  have hlt : firstIndex samples.length < samples.length := by
    unfold firstIndex
    omega
  exact ⟨_, _, List.getElem?_eq_getElem hlt, List.getLast?_eq_some_getLast hne⟩

/-! ## Any order -/

/-- For the samples of this collection, in whatever order and among whatever samples of
other topics, the rate is never negative and always the same. -/
def RateIsSane (topic : DdsTopic) (collection : List (RtpsPayloadData π)) : Prop :=
  (∀ calls : List (DdsTopic × RtpsPayloadData π), (samplesOf topic calls).Perm collection →
    0 ≤ (exec calls).getTopicRate topic) ∧
  ∀ calls calls' : List (DdsTopic × RtpsPayloadData π),
    (samplesOf topic calls).Perm collection → (samplesOf topic calls').Perm collection →
      (exec calls).getTopicRate topic = (exec calls').getTopicRate topic

section Order

variable {topic : DdsTopic} {collection : List (RtpsPayloadData π)}

/-- The rate is sane if it is the same, and not negative, whichever samples the entry
remembers. -/
theorem rateIsSane_of_forall (rate : WithTop ℚ) (hrate : 0 ≤ rate) (hne : collection ≠ [])
    (h : ∀ samples : List (RtpsPayloadData π), samples.Perm collection → ∀ first last,
      samples[firstIndex collection.length]? = some first → samples.getLast? = some last →
        rateBetween collection.length first last = rate) :
    RateIsSane topic collection := by
  have hall : ∀ calls : List (DdsTopic × RtpsPayloadData π),
      (samplesOf topic calls).Perm collection → (exec calls).getTopicRate topic = rate := by
    intro calls hperm
    have hnil : samplesOf topic calls ≠ [] := fun hnil => hne (by simpa [hnil] using hperm)
    obtain ⟨first, last, hfirst, hlast⟩ := exists_first_last hnil
    rw [getTopicRate_exec rfl hfirst hlast, hperm.length_eq]
    rw [hperm.length_eq] at hfirst
    exact h _ hperm first last hfirst hlast
  refine ⟨fun calls hperm => ?_, fun calls calls' hperm hperm' => ?_⟩
  · rw [hall calls hperm]
    exact hrate
  · rw [hall calls hperm, hall calls' hperm']

theorem rateIsSane_nil : RateIsSane topic ([] : List (RtpsPayloadData π)) := by
  have hall : ∀ calls : List (DdsTopic × RtpsPayloadData π),
      (samplesOf topic calls).Perm [] → (exec calls).getTopicRate topic = 0 :=
    fun calls hperm => getTopicRate_exec_of_nil hperm.eq_nil
  refine ⟨fun calls hperm => (hall calls hperm).ge, fun calls calls' hperm hperm' => ?_⟩
  rw [hall calls hperm, hall calls' hperm']

/-- With two samples in the same second, the rate is infinite. -/
theorem rateBetween_of_eq {count : ℕ} {first last : RtpsPayloadData π}
    (h : secondsOf first = secondsOf last) : rateBetween count first last = ⊤ := by
  rw [rateBetween, if_pos (by omega)]

theorem rateBetween_of_ne {count : ℕ} {first last : RtpsPayloadData π}
    (h : secondsOf first ≠ secondsOf last) : rateBetween count first last =
      ↑(((count % 2 ^ 32 : ℕ) : ℚ) / (secondsOf last - secondsOf first : ℤ)) := by
  rw [rateBetween, if_neg (by omega)]

/-- A counter that has wrapped to `0` gives the rate `0`. -/
theorem rateBetween_of_wrapped {count : ℕ} (hcount : count % 2 ^ 32 = 0)
    {first last : RtpsPayloadData π} (h : secondsOf first ≠ secondsOf last) :
    rateBetween count first last = 0 := by
  rw [rateBetween_of_ne h, hcount]
  simp

/-- When a later time stamp arrives first, the rate is negative. -/
theorem rateBetween_neg {count : ℕ} (hcount : count % 2 ^ 32 ≠ 0)
    {first last : RtpsPayloadData π} (h : secondsOf last < secondsOf first) :
    rateBetween count first last < 0 := by
  rw [rateBetween_of_ne (ne_of_gt h), ← WithTop.coe_zero, WithTop.coe_lt_coe]
  apply div_neg_of_pos_of_neg
  · exact_mod_cast Nat.pos_of_ne_zero hcount
  · exact_mod_cast sub_neg_of_lt h

/-- Any two entries can be those that the entry of the topic remembers, unless the last
sample found the counter at `0`. -/
theorem exists_calls_between (topic : DdsTopic) {a b : RtpsPayloadData π}
    {rest : List (RtpsPayloadData π)}
    (hperm : collection.Perm (a :: b :: rest)) (hcount : collection.length % 2 ^ 32 ≠ 1) :
    ∃ calls : List (DdsTopic × RtpsPayloadData π), (samplesOf topic calls).Perm collection ∧
      (exec calls).getTopicRate topic = rateBetween collection.length a b := by
  have hlength : collection.length = rest.length + 2 := hperm.length_eq
  have hindex : firstIndex collection.length + 1 < collection.length := by
    unfold firstIndex
    omega
  obtain ⟨samples, hsamples, hfirst, hlast⟩ := exists_arrangement hperm hindex
  refine ⟨samples.map (fun data => (topic, data)), ?_, ?_⟩
  · rwa [samplesOf_map_pair]
  · rw [← hsamples.length_eq] at hfirst ⊢
    exact getTopicRate_exec (samplesOf_map_pair topic samples) hfirst hlast

/-- Two samples of different seconds give a negative rate when the later one is first. -/
theorem not_rateIsSane_of_counting (hone : collection.length % 2 ^ 32 ≠ 1)
    (hzero : collection.length % 2 ^ 32 ≠ 0) {a b : RtpsPayloadData π} (ha : a ∈ collection)
    (hb : b ∈ collection) (hlt : secondsOf a < secondsOf b) : ¬ RateIsSane topic collection := by
  intro h
  have hne : b ≠ a := by
    rintro rfl
    omega
  obtain ⟨rest, hperm⟩ := exists_perm_of_ne hb ha hne
  obtain ⟨calls, hcalls, hrate⟩ := exists_calls_between topic hperm hone
  have hnonneg := h.1 calls hcalls
  rw [hrate] at hnonneg
  exact absurd hnonneg (rateBetween_neg hzero hlt).not_ge

/-- With the counter at `0`, two samples of one second give the infinite rate and two of
different seconds the rate `0`. -/
theorem not_rateIsSane_of_wrapped (hzero : collection.length % 2 ^ 32 = 0)
    {a b : RtpsPayloadData π} (ha : a ∈ collection) (hb : b ∈ collection)
    (hne : secondsOf a ≠ secondsOf b) (hdup : ¬ (collection.map secondsOf).Nodup) :
    ¬ RateIsSane topic collection := by
  intro h
  have hone : collection.length % 2 ^ 32 ≠ 1 := by omega
  obtain ⟨rest, hperm⟩ := exists_perm_of_ne ha hb (fun hab => hne (congrArg secondsOf hab))
  obtain ⟨calls, hcalls, hrate⟩ := exists_calls_between topic hperm hone
  obtain ⟨x, y, rest', hperm', heq⟩ := exists_perm_of_not_nodup_map hdup
  obtain ⟨calls', hcalls', hrate'⟩ := exists_calls_between topic hperm' hone
  have hsame := h.2 calls calls' hcalls hcalls'
  rw [hrate, hrate', rateBetween_of_wrapped hzero hne, rateBetween_of_eq heq] at hsame
  exact WithTop.zero_ne_top hsame

theorem rateIsSane_of_oneSecond
    (h : ∀ a ∈ collection, ∀ b ∈ collection, secondsOf a = secondsOf b) :
    RateIsSane topic collection := by
  by_cases hne : collection = []
  · rw [hne]
    exact rateIsSane_nil
  · refine rateIsSane_of_forall ⊤ le_top hne fun samples hperm first last hfirst hlast => ?_
    have hmem := hperm.mem_iff.mp (List.mem_of_getElem? hfirst)
    have hmem' := hperm.mem_iff.mp (List.mem_of_getLast? hlast)
    exact rateBetween_of_eq (h first hmem last hmem')

/-- When the counter is one, the entry remembers the last sample twice. -/
theorem rateIsSane_of_one (hone : collection.length % 2 ^ 32 = 1) :
    RateIsSane topic collection := by
  have hne : collection ≠ [] := by
    rintro rfl
    simp at hone
  refine rateIsSane_of_forall ⊤ le_top hne fun samples hperm first last hfirst hlast => ?_
  have hindex : firstIndex collection.length = samples.length - 1 := by
    rw [hperm.length_eq]
    unfold firstIndex
    omega
  rw [hindex, ← List.getLast?_eq_getElem?, hlast] at hfirst
  rw [Option.some.inj hfirst]
  exact rateBetween_of_eq rfl

theorem rateIsSane_of_wrapped (hzero : collection.length % 2 ^ 32 = 0)
    (hnodup : (collection.map secondsOf).Nodup) : RateIsSane topic collection := by
  by_cases hne : collection = []
  · rw [hne]
    exact rateIsSane_nil
  · refine rateIsSane_of_forall 0 le_rfl hne fun samples hperm first last hfirst hlast => ?_
    have hpos := List.length_pos_iff.mpr hne
    have hindex : firstIndex collection.length < samples.length - 1 := by
      rw [hperm.length_eq]
      unfold firstIndex
      omega
    apply rateBetween_of_wrapped hzero
    intro heq
    have hnodup' : (samples.map secondsOf).Nodup := (hperm.map secondsOf).nodup_iff.mpr hnodup
    have hlast' : samples[samples.length - 1]? = some last := by
      rw [← List.getLast?_eq_getElem?, hlast]
    have hsame : (samples.map secondsOf)[firstIndex collection.length]? =
        (samples.map secondsOf)[samples.length - 1]? := by
      rw [List.getElem?_map, List.getElem?_map, hfirst, hlast', Option.map_some, Option.map_some,
        heq]
    have hlength : firstIndex collection.length < (samples.map secondsOf).length := by
      rw [List.length_map]
      omega
    have hposition := (List.getElem?_inj hlength hnodup').mp hsame
    omega

/-- The rate of a collection is never negative and does not depend on the order of arrival
if and only if all its samples are in one second, or its counter is one when it stops, or
its counter has wrapped to `0` and no two samples are in one second. -/
theorem rateIsSane_iff_oneSecond (topic : DdsTopic) (collection : List (RtpsPayloadData π)) :
    RateIsSane topic collection ↔
      (∀ a ∈ collection, ∀ b ∈ collection, secondsOf a = secondsOf b) ∨
        collection.length % 2 ^ 32 = 1 ∨
        (collection.length % 2 ^ 32 = 0 ∧ (collection.map secondsOf).Nodup) := by
  constructor
  · intro h
    by_contra hnot
    simp only [not_or, not_forall, exists_prop] at hnot
    obtain ⟨⟨a, ha, b, hb, hne⟩, hone, hwrapped⟩ := hnot
    by_cases hzero : collection.length % 2 ^ 32 = 0
    · have hdup : ¬ (collection.map secondsOf).Nodup := fun hnodup => hwrapped ⟨hzero, hnodup⟩
      exact not_rateIsSane_of_wrapped hzero ha hb hne hdup h
    · rcases lt_or_gt_of_ne hne with hlt | hlt
      · exact not_rateIsSane_of_counting hone hzero ha hb hlt h
      · exact not_rateIsSane_of_counting hone hzero hb ha hlt h
  · intro h
    rcases h with hsecond | hone | ⟨hzero, hnodup⟩
    · exact rateIsSane_of_oneSecond hsecond
    · exact rateIsSane_of_one hone
    · exact rateIsSane_of_wrapped hzero hnodup

/-- A sample at a time. -/
def sampleAt (time : DataTime) : RtpsPayloadData Unit := ⟨⟨1, 2⟩, 7, time, ()⟩

theorem getTopicRate_two (first last : DataTime) :
    (exec [(keyedTopic, sampleAt first), (keyedTopic, sampleAt last)]).getTopicRate keyedTopic =
      rateBetween 2 (sampleAt first) (sampleAt last) := by
  have hindex : firstIndex 2 = 0 := by decide
  exact getTopicRate_exec (samplesOf_map_pair keyedTopic [sampleAt first, sampleAt last])
    (congrArg ([sampleAt first, sampleAt last][·]?) hindex) rfl

/-- Two samples one second apart: the rate is negative when the later one arrives first. -/
theorem not_rateIsSane_swapped :
    (exec [(keyedTopic, sampleAt 0), (keyedTopic, sampleAt 1)]).getTopicRate keyedTopic =
        ((2 : ℚ) : WithTop ℚ) ∧
      (exec [(keyedTopic, sampleAt 1), (keyedTopic, sampleAt 0)]).getTopicRate keyedTopic =
        ((-2 : ℚ) : WithTop ℚ) ∧
      ¬ RateIsSane keyedTopic [sampleAt 0, sampleAt 1] := by
  have hswapped : (exec [(keyedTopic, sampleAt 1), (keyedTopic, sampleAt 0)]).getTopicRate
      keyedTopic = ((-2 : ℚ) : WithTop ℚ) := by
    rw [getTopicRate_two]
    norm_num [rateBetween, sampleAt, DataTime.seconds]
  refine ⟨?_, hswapped, fun h => ?_⟩
  · rw [getTopicRate_two]
    norm_num [rateBetween, sampleAt, DataTime.seconds]
  · have hnonneg := h.1 [(keyedTopic, sampleAt 1), (keyedTopic, sampleAt 0)]
      (List.Perm.swap (sampleAt 0) (sampleAt 1) [])
    rw [hswapped, ← WithTop.coe_zero, WithTop.coe_le_coe] at hnonneg
    norm_num at hnonneg

end Order

/-! ## Periodic samples -/

/-- The times of `n` samples from a start time on, one in every period. -/
def periodicTimes (n : ℕ) (period start : DataTime) : List DataTime :=
  (List.range n).map (fun i : ℕ => start + i * period)

theorem getElem?_periodicTimes {n i : ℕ} (hi : i < n) (period start : DataTime) :
    (periodicTimes n period start)[i]? = some (start + i * period) := by
  simp [periodicTimes, hi]

/-- The whole seconds from the first to the last of `n` periodic samples. -/
def periodicSeconds (n : ℕ) (period start : DataTime) : ℤ :=
  DataTime.seconds (start + (n - 1) * period) - DataTime.seconds start

section Periodic

variable {n : ℕ} {period start : DataTime}

theorem getTopicRate_periodic {calls : List (DdsTopic × RtpsPayloadData π)} {topic : DdsTopic}
    (hn : 2 ≤ n) (hlt : n < 2 ^ 32)
    (htimes : (samplesOf topic calls).map RtpsPayloadData.sourceTimestamp =
      periodicTimes n period start) :
    (exec calls).getTopicRate topic =
      if periodicSeconds n period start = 0 then ⊤
      else ↑((n : ℚ) / (periodicSeconds n period start : ℤ)) := by
  have hlength : (samplesOf topic calls).length = n := by
    have hcongr := congrArg List.length htimes
    simpa [periodicTimes] using hcongr
  have hne : samplesOf topic calls ≠ [] := by
    rw [← List.length_pos_iff, hlength]
    omega
  have htime : ∀ i < n, ∀ data, (samplesOf topic calls)[i]? = some data →
      data.sourceTimestamp = start + i * period := by
    intro i hi data hdata
    have hmap := congrArg (fun times => times[i]?) htimes
    rw [List.getElem?_map, hdata, getElem?_periodicTimes hi] at hmap
    exact Option.some.inj hmap
  obtain ⟨first, last, hfirst, hlast⟩ := exists_first_last hne
  have hindex : firstIndex n = 0 := by
    unfold firstIndex
    omega
  have hpred : ((n - 1 : ℕ) : ℚ) = n - 1 := by
    rw [Nat.cast_sub (by omega), Nat.cast_one]
  have hfirstTime : first.sourceTimestamp = start := by
    have h := htime 0 (by omega) first (by rw [← hindex, ← hlength, hfirst])
    simpa using h
  have hlastTime : last.sourceTimestamp = start + (n - 1) * period := by
    have h := htime (n - 1) (by omega) last (by rw [← hlength, ← List.getLast?_eq_getElem?, hlast])
    rwa [hpred] at h
  have hseconds : secondsOf last - secondsOf first = periodicSeconds n period start := by
    rw [secondsOf, secondsOf, hfirstTime, hlastTime]
    rfl
  rw [getTopicRate_exec rfl hfirst hlast, hlength, rateBetween, hseconds, Nat.mod_eq_of_lt hlt]

/-- The whole seconds are `n` periods just when these are a whole number of seconds and the
period is within the second of the start: the last of the periods is not among them. -/
theorem periodicSeconds_eq_iff (hperiod : 0 < period) :
    n * period = (periodicSeconds n period start : ℚ) ↔
      (∃ k : ℤ, n * period = k) ∧ period ≤ Int.fract start := by
  have hshift : ∀ k : ℤ, n * period = k →
      periodicSeconds n period start = ⌊start - period⌋ + k - ⌊start⌋ := by
    intro k hk
    have hlast : start + (n - 1) * period = start - period + k := by
      rw [← hk]
      ring
    rw [periodicSeconds, DataTime.seconds, DataTime.seconds, hlast, Int.floor_add_intCast]
  constructor
  · intro h
    have hsame : ⌊start⌋ = ⌊start - period⌋ := by
      have hseconds := hshift _ h
      omega
    have hle : (⌊start⌋ : ℚ) ≤ start - period := hsame ▸ Int.floor_le (start - period)
    refine ⟨⟨_, h⟩, ?_⟩
    rw [Int.fract]
    linarith
  · intro h
    obtain ⟨⟨k, hk⟩, hle⟩ := h
    rw [Int.fract] at hle
    have hsame : ⌊start - period⌋ = ⌊start⌋ := by
      rw [Int.floor_eq_iff]
      constructor
      · linarith
      · linarith [Int.lt_floor_add_one start]
    rw [hshift k hk, hsame, add_sub_cancel_left, hk]

end Periodic

/-- After `n` samples of a period, the rate is the frequency if and only if the `n` periods
are a whole number of seconds and the period is within the second of the start. -/
theorem periodicRate_iff {calls : List (DdsTopic × RtpsPayloadData π)} {topic : DdsTopic} {n : ℕ}
    {period start : DataTime} (hn : 2 ≤ n) (hlt : n < 2 ^ 32) (hperiod : 0 < period)
    (htimes : (samplesOf topic calls).map RtpsPayloadData.sourceTimestamp =
      periodicTimes n period start) :
    (exec calls).getTopicRate topic = ((1 / period : ℚ) : WithTop ℚ) ↔
      (∃ k : ℤ, n * period = k) ∧ period ≤ Int.fract start := by
  rw [getTopicRate_periodic hn hlt htimes, ← periodicSeconds_eq_iff hperiod]
  have hcount : (0 : ℚ) < n := by exact_mod_cast (show 0 < n by omega)
  by_cases hzero : periodicSeconds n period start = 0
  · have hne : (n : ℚ) * period ≠ 0 := (mul_pos hcount hperiod).ne'
    rw [if_pos hzero, hzero, Int.cast_zero]
    exact iff_of_false WithTop.top_ne_coe hne
  · have hne : (periodicSeconds n period start : ℚ) ≠ 0 := Int.cast_ne_zero.mpr hzero
    rw [if_neg hzero, WithTop.coe_inj, div_eq_div_iff hne hperiod.ne', one_mul]

theorem sourceTimestamps_two (first last : DataTime) :
    (samplesOf keyedTopic [(keyedTopic, sampleAt first), (keyedTopic, sampleAt last)]).map
      RtpsPayloadData.sourceTimestamp = [first, last] :=
  congrArg (List.map RtpsPayloadData.sourceTimestamp)
    (samplesOf_map_pair keyedTopic [sampleAt first, sampleAt last])

theorem periodicRate_half :
    (exec [(keyedTopic, sampleAt (1 / 2)), (keyedTopic, sampleAt 1)]).getTopicRate keyedTopic =
        ((1 / (1 / 2) : ℚ) : WithTop ℚ) ↔
      (∃ k : ℤ, (2 : ℕ) * (1 / 2 : ℚ) = k) ∧ (1 / 2 : ℚ) ≤ Int.fract (1 / 2 : ℚ) := by
  refine periodicRate_iff (by decide) (by decide) (by norm_num) ?_
  rw [sourceTimestamps_two]
  norm_num [periodicTimes, List.range_succ]

/-- Two samples with a period of one second: the rate is 2, not 1. -/
theorem not_periodicRate_second :
    (samplesOf keyedTopic [(keyedTopic, sampleAt 0), (keyedTopic, sampleAt 1)]).map
        RtpsPayloadData.sourceTimestamp = periodicTimes 2 1 0 ∧
      (exec [(keyedTopic, sampleAt 0), (keyedTopic, sampleAt 1)]).getTopicRate keyedTopic =
        ((2 : ℚ) : WithTop ℚ) ∧
      (exec [(keyedTopic, sampleAt 0), (keyedTopic, sampleAt 1)]).getTopicRate keyedTopic ≠
        ((1 / 1 : ℚ) : WithTop ℚ) := by
  have hrate : (exec [(keyedTopic, sampleAt 0), (keyedTopic, sampleAt 1)]).getTopicRate
      keyedTopic = ((2 : ℚ) : WithTop ℚ) := by
    rw [getTopicRate_two]
    norm_num [rateBetween, sampleAt, DataTime.seconds]
  refine ⟨?_, hrate, ?_⟩
  · rw [sourceTimestamps_two]
    norm_num [periodicTimes, List.range_succ]
  · rw [hrate, Ne, WithTop.coe_inj]
    norm_num

end FastDdsSpy.TopicRateCalculator
