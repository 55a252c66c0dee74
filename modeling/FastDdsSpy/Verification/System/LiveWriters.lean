import FastDdsSpy.Verification.DataStreamer.Equations
import FastDdsSpy.Verification.InstanceCache.Refinement
import FastDdsSpy.Verification.Instances
import FastDdsSpy.Verification.System.Departed

/-! # Writers of active instances

Discovery records and samples of a writer arrive in any order. A removal takes the writer
out of the cache; a sample that is processed after it puts the writer in again. -/

namespace FastDdsSpy.Spy

open Std PastTime InstanceCache

variable {τ π δ : Type*} {env : External} {ts : TypeSupport τ π δ} {cfg : Configuration}

/-- The instance cache of the tool. -/
abbrev cache (s : Spy τ) : InstanceCache := s.controller.model.instanceCache

/-- The last record of the writer is a removal. -/
def Removed (guid : Guid) (es : List (Event τ π)) : Prop :=
  ∃ endpointInfo, lastRecord guid es = some endpointInfo ∧ endpointInfo.info.active = false

/-- Every instance whose key is reported has a writer that has not been removed. -/
def InstancesLive (env : External) (ts : TypeSupport τ π δ) (cfg : Configuration)
    (pre : List (Event τ π)) : Prop :=
  ∀ t h info, lookup (exec env ts cfg pre).cache t h = some info →
    info.keyRepresentation ∈ (exec env ts cfg pre).controller.model.getTopicInstances t →
    ∃ w ∈ info.activeWriters, ¬ Removed w pre

/-- The event carries the topic name of its writer. -/
def OnTopic (topicOf : Guid → String) : Event τ π → Prop
  | .newEndpointInfo endpointInfo =>
      endpointInfo.info.topic.topicName = topicOf endpointInfo.info.guid
  | .addData topic data => topic.topicName = topicOf data.sourceGuid
  | _ => True

/-- A sample of a removed writer is not accepted by the cache, and the removal of a writer
that is registered there is the record of a writer. -/
def NoLateSample (env : External) (ts : TypeSupport τ π δ) (cfg : Configuration)
    (pre : List (Event τ π)) : Event τ π → Prop
  | .addData topic data => Removed data.sourceGuid pre → ∀ ty,
      (exec env ts cfg pre).controller.model.typesDiscovered[topic.typeName]? = some ty →
        ¬ Accepts ts (exec env ts cfg pre).cache topic.topicName ty data
  | .newEndpointInfo endpointInfo => endpointInfo.info.active = false →
      endpointInfo.info.isWriter = false →
        ∀ t h, ¬ HasWriter (exec env ts cfg pre).cache t h endpointInfo.info.guid
  | _ => True

/-! ## Registered writers -/

/-- Every registered writer is on its own topic and has not been removed. -/
structure WritersLive (env : External) (ts : TypeSupport τ π δ) (cfg : Configuration)
    (topicOf : Guid → String) (es : List (Event τ π)) : Prop where
  wellFormed : WellFormed (exec env ts cfg es).cache
  onTopic : ∀ t h w, HasWriter (exec env ts cfg es).cache t h w → t = topicOf w
  alive : ∀ t h w, HasWriter (exec env ts cfg es).cache t h w → ¬ Removed w es

theorem removed_concat_of_no_record {es : List (Event τ π)} {e : Event τ π} {w : Guid}
    (h : e.recordOf w = none) : Removed w (es ++ [e]) ↔ Removed w es := by
  simp [Removed, lastRecord_concat, h]

/-- An event without a record that leaves the cache alone. -/
theorem WritersLive.of_cache_eq {topicOf : Guid → String} {es : List (Event τ π)}
    {e : Event τ π} (hs : WritersLive env ts cfg topicOf es) (hrec : e.record = none)
    (hcache : (exec env ts cfg (es ++ [e])).cache = (exec env ts cfg es).cache) :
    WritersLive env ts cfg topicOf (es ++ [e]) := by
  have hremoved : ∀ w, Removed w (es ++ [e]) ↔ Removed w es :=
    fun w => removed_concat_of_no_record (by simp [Event.recordOf, hrec])
  refine ⟨by rw [hcache]; exact hs.wellFormed, ?_, ?_⟩
  · rw [hcache]
    exact hs.onTopic
  · intro t h w
    rw [hcache, hremoved]
    exact hs.alive t h w

theorem cache_newEndpointInfo (s : Spy τ) (endpointInfo : EndpointInfoData) :
    (step env ts s (.newEndpointInfo endpointInfo)).cache =
      if endpointInfo.info.isWriter then s.cache.onWriterChanged endpointInfo.info.guid
        endpointInfo.info.topic.topicName endpointInfo.info.active
      else s.cache := by
  by_cases hw : endpointInfo.info.isWriter = true <;>
    simp [cache, step, setModel, SpyModel.newEndpointInfo, hw, DataStreamer.onWriterDiscovered]

theorem removed_newEndpointInfo {es : List (Event τ π)} {endpointInfo : EndpointInfoData}
    {w : Guid} : Removed w (es ++ [.newEndpointInfo endpointInfo]) ↔
      if endpointInfo.info.guid = w then endpointInfo.info.active = false else Removed w es := by
  by_cases hw : endpointInfo.info.guid = w <;>
    simp [Removed, lastRecord_concat, Event.recordOf_newEndpointInfo, hw]

theorem WritersLive.newEndpointInfo {topicOf : Guid → String} {es : List (Event τ π)}
    {endpointInfo : EndpointInfoData} (hs : WritersLive env ts cfg topicOf es)
    (htopic : OnTopic topicOf (.newEndpointInfo endpointInfo : Event τ π))
    (hlate : NoLateSample env ts cfg es (.newEndpointInfo endpointInfo)) :
    WritersLive env ts cfg topicOf (es ++ [.newEndpointInfo endpointInfo]) := by
  -- no writer is added, and the one of a removal is gone from its topic
  have hcache : WellFormed (exec env ts cfg (es ++ [.newEndpointInfo endpointInfo])).cache ∧
      ∀ t h w, HasWriter (exec env ts cfg (es ++ [.newEndpointInfo endpointInfo])).cache t h w →
        HasWriter (exec env ts cfg es).cache t h w ∧
          (endpointInfo.info.active = false → endpointInfo.info.guid ≠ w) := by
    rw [exec_concat, cache_newEndpointInfo]
    by_cases hw : endpointInfo.info.isWriter = true
    · rw [if_pos hw]
      refine ⟨hs.wellFormed.onWriterChanged _ _ _, fun t h w hwriter => ?_⟩
      cases hactive : endpointInfo.info.active with
      | true =>
          rw [hactive, onWriterChanged_active] at hwriter
          exact ⟨hwriter, by simp⟩
      | false =>
          rw [hactive, hasWriter_onWriterChanged] at hwriter
          refine ⟨hwriter.1, fun _ hguid => hwriter.2 ⟨?_, hguid⟩⟩
          have hold := hs.onTopic t h w hwriter.1
          rw [hold, ← hguid]
          exact htopic
    · rw [if_neg hw]
      refine ⟨hs.wellFormed, fun t h w hwriter => ⟨hwriter, ?_⟩⟩
      rintro hactive rfl
      exact hlate hactive (by simpa using hw) t h hwriter
  refine ⟨hcache.1, fun t h w hwriter => hs.onTopic t h w (hcache.2 t h w hwriter).1, ?_⟩
  intro t h w hwriter
  obtain ⟨hold, hne⟩ := hcache.2 t h w hwriter
  rw [removed_newEndpointInfo]
  by_cases hguid : endpointInfo.info.guid = w
  · rw [if_pos hguid]
    exact fun hactive => hne hactive hguid
  · rw [if_neg hguid]
    exact hs.alive t h w hold

theorem WritersLive.addData {topicOf : Guid → String} {es : List (Event τ π)}
    {topic : DdsTopic} {data : RtpsPayloadData π} (hs : WritersLive env ts cfg topicOf es)
    (htopic : OnTopic topicOf (.addData topic data : Event τ π))
    (hlate : NoLateSample env ts cfg es (.addData topic data)) :
    WritersLive env ts cfg topicOf (es ++ [.addData topic data]) := by
  have hstreamer := DataStreamer.instanceCache_addData env ts
    (exec env ts cfg es).controller.model.toDataStreamer topic data
  cases hty : (exec env ts cfg es).controller.model.typesDiscovered[topic.typeName]? with
  | none =>
      rw [hty] at hstreamer
      refine hs.of_cache_eq rfl ?_
      rw [exec_concat]
      exact hstreamer
  | some ty =>
      rw [hty] at hstreamer
      have hcache : (exec env ts cfg (es ++ [.addData topic data])).cache =
          ((exec env ts cfg es).cache.addOrUpdateInstance ts topic (some ty) data).1 := by
        rw [exec_concat]
        exact hstreamer
      have hspec := addOrUpdateInstance_spec ts (exec env ts cfg es).cache topic ty data
      have hremoved : ∀ w, Removed w (es ++ [.addData topic data]) ↔ Removed w es :=
        fun w => removed_concat_of_no_record rfl
      refine ⟨by rw [hcache]; exact hspec.wellFormed hs.wellFormed, ?_, ?_⟩
      · intro t h w hwriter
        rw [hcache, hspec.hasWriter_iff] at hwriter
        rcases hwriter with hold | ⟨-, rfl, -, rfl⟩
        · exact hs.onTopic t h w hold
        · exact htopic
      · intro t h w hwriter
        rw [hcache, hspec.hasWriter_iff] at hwriter
        rw [hremoved]
        rcases hwriter with hold | ⟨hok, -, -, rfl⟩
        · exact hs.alive t h w hold
        · intro hrem
          exact hlate hrem ty hty (hspec.result_iff.mp hok)

theorem writersLive_concat {topicOf : Guid → String} (es : List (Event τ π)) (e : Event τ π)
    (hs : WritersLive env ts cfg topicOf es)
    (h : OnTopic topicOf e ∧ NoLateSample env ts cfg es e) :
    WritersLive env ts cfg topicOf (es ++ [e]) := by
  cases e with
  | newParticipantInfo info => exact hs.of_cache_eq rfl (by rw [exec_concat]; rfl)
  | newEndpointInfo endpointInfo => exact hs.newEndpointInfo h.1 h.2
  | addSchema ty => exact hs.of_cache_eq rfl (by rw [exec_concat]; rfl)
  | addData topic data => exact hs.addData h.1 h.2
  | input command arguments =>
      refine hs.of_cache_eq rfl ?_
      rw [exec_concat]
      exact (sameData_input env ts _ command arguments).instanceCache_eq

theorem WritersLive.instancesLive {topicOf : Guid → String} {es : List (Event τ π)}
    (hs : WritersLive env ts cfg topicOf es) : InstancesLive env ts cfg es := by
  intro t h info hl _
  obtain ⟨w, hw⟩ := hs.wellFormed.lookup_ne_none_iff.mp (by simp [hl] :
    lookup (exec env ts cfg es).cache t h ≠ none)
  have halive := hs.alive t h w hw
  obtain ⟨info', hl', hmem⟩ := hw
  obtain rfl := Option.some.inj (hl.symm.trans hl')
  exact ⟨w, hmem, halive⟩

/-- When every writer keeps to its topic name and no sample of a removed writer is accepted,
every reported instance has a writer that has not been removed, throughout the run. -/
theorem instancesLive_of_noLateSample (topicOf : Guid → String) {es : List (Event τ π)}
    (htopic : ∀ e ∈ es, OnTopic topicOf e) (hlate : EachStep (NoLateSample env ts cfg) es) :
    Always (InstancesLive env ts cfg) es := by
  have hstart : WritersLive env ts cfg topicOf ([] : List (Event τ π)) := by
    have hnone : ∀ t h w, ¬ HasWriter (exec env ts cfg ([] : List (Event τ π))).cache t h w := by
      intro t h w hwriter
      obtain ⟨info, hl, -⟩ := hwriter
      exact absurd ((lookup_empty t h).symm.trans hl) (by simp)
    exact ⟨wellFormed_empty, fun t h w hw => absurd hw (hnone t h w),
      fun t h w hw => absurd hw (hnone t h w)⟩
  have hboth : EachStep (fun pre e => OnTopic topicOf e ∧ NoLateSample env ts cfg pre e) es :=
    fun pre e hp => ⟨eachStep_of_forall_mem htopic pre e hp, hlate pre e hp⟩
  intro pre hp
  exact (always_of_eachStep hstart writersLive_concat hboth pre hp).instancesLive

/-- Two writers send samples of one instance. The first one leaves, and a sample that it sent
before, of another instance, is corrupt. -/
def corruptLateRun : List (Event Unit Bool) :=
  [.addSchema (), .newEndpointInfo (writerRecord ⟨1, 2⟩ "A" true),
    .newEndpointInfo (writerRecord ⟨2, 2⟩ "A" true),
    .addData keyedTopic ⟨⟨1, 2⟩, 7, 0, true⟩, .addData keyedTopic ⟨⟨2, 2⟩, 7, 0, true⟩,
    .newEndpointInfo (writerRecord ⟨1, 2⟩ "A" false),
    .addData keyedTopic ⟨⟨1, 2⟩, 8, 0, false⟩]

theorem instancesLive_corruptLate :
    Always (InstancesLive literal corruptibleType (withPartitions ∅)) corruptLateRun := by
  refine instancesLive_of_noLateSample (fun _ => "topic") ?_ ?_
  · simp [corruptLateRun, OnTopic, writerRecord, keyedTopic]
  · have hnew : (lookup (exec literal corruptibleType (withPartitions ∅)
        (corruptLateRun.take 6)).cache "topic" 8).isSome = false := by
      decide +kernel
    have halive (guid : Guid) (pre : List (Event Unit Bool)) (endpointInfo : EndpointInfoData)
        (hlast : lastRecord guid pre = some endpointInfo)
        (hactive : endpointInfo.info.active = true) : ¬ Removed guid pre := by
      rintro ⟨record, hrecord, hremoved⟩
      obtain rfl := Option.some.inj (hlast.symm.trans hrecord)
      simp [hactive] at hremoved
    simp only [corruptLateRun, eachStep_cons]
    refine ⟨trivial, ?_, ?_, ?_, ?_, ?_, ?_, eachStep_nil⟩
    · exact fun hremoval => by cases hremoval
    · exact fun hremoval => by cases hremoval
    · exact fun hremoved => absurd hremoved (halive _ _ (writerRecord ⟨1, 2⟩ "A" true) rfl rfl)
    · exact fun hremoved => absurd hremoved (halive _ _ (writerRecord ⟨2, 2⟩ "A" true) rfl rfl)
    · exact fun _ hreader => by cases hreader
    · -- the instance is not stored and the key of the sample cannot be serialized
      rintro - ty hty ⟨-, ⟨info, hlookup, -⟩ | ⟨-, hkey⟩⟩
      · exact absurd (hnew.symm.trans (congrArg Option.isSome hlookup)) Bool.false_ne_true
      · exact hkey rfl

/-- A writer arrives and leaves, and then a sample that it sent before is processed. -/
def lateSampleRun : List (Event Unit Unit) :=
  [.addSchema (), .newEndpointInfo (writerRecord ⟨1, 2⟩ "A" true),
    .newEndpointInfo (writerRecord ⟨1, 2⟩ "A" false), .addData keyedTopic (keyedSample ⟨1, 2⟩ 7)]

theorem not_instancesLive_lateSample :
    (∀ e ∈ lateSampleRun, OnTopic (fun _ => "topic") e) ∧
      ¬ Always (InstancesLive literal keyedType (withPartitions ∅)) lateSampleRun := by
  constructor
  · simp [lateSampleRun, OnTopic, writerRecord, keyedTopic]
  · intro h
    have hlookup : ∃ info,
        lookup (exec literal keyedType (withPartitions ∅) lateSampleRun).cache "topic" 7 =
          some info ∧ info.activeWriters.toList = [⟨1, 2⟩] ∧
          info.keyRepresentation ∈ (exec literal keyedType (withPartitions ∅)
            lateSampleRun).controller.model.getTopicInstances "topic" :=
      ⟨_, rfl, by decide, by decide⟩
    obtain ⟨info, hl, hwriters, hkey⟩ := hlookup
    obtain ⟨w, hw, halive⟩ := h.last "topic" 7 info hl hkey
    obtain rfl : w = ⟨1, 2⟩ := by
      rw [← ExtTreeSet.mem_toList, hwriters] at hw
      simpa using hw
    exact halive ⟨writerRecord ⟨1, 2⟩ "A" false, rfl, rfl⟩

end FastDdsSpy.Spy
