import FastDdsSpy.Verification.DataStreamer.Delivery
import FastDdsSpy.Verification.InstanceCache.Refinement
import FastDdsSpy.Verification.ModelParser.Topics
import FastDdsSpy.Verification.System.Departed

/-! # The key fields shown for a topic

Types are registered by type name, key fields are kept by topic name, and a topic is listed
by both. The key fields of a topic name are those of the first type with key members through
which one of its samples was processed. -/

namespace FastDdsSpy

open Std PastTime ModelParser
open InstanceCache (keyFieldNames getKeyFields)

variable {τ π δ : Type*} {env : External} {ts : TypeSupport τ π δ} {cfg : Configuration}

/-- The type of this name that an event registers. -/
def Event.typeNamed (ts : TypeSupport τ π δ) (typeName : String) : Event τ π → Option τ
  | .addSchema dynamicType => if ts.getName dynamicType = typeName then some dynamicType else none
  | _ => none

namespace Spy

/-- The type currently registered under this name. -/
def registeredType (ts : TypeSupport τ π δ) (typeName : String) (es : List (Event τ π)) :
    Option τ :=
  latest (Event.typeNamed ts typeName) es

theorem registeredType_concat (typeName : String) (es : List (Event τ π)) (e : Event τ π) :
    registeredType ts typeName (es ++ [e]) =
      (e.typeNamed ts typeName).or (registeredType ts typeName es) :=
  latest_concat _ es e

theorem typesDiscovered_newEndpointInfo {κ : Type*} (m : SpyModel τ κ)
    (endpointInfo : EndpointInfoData) :
    (m.newEndpointInfo endpointInfo).typesDiscovered = m.typesDiscovered := by
  by_cases hw : endpointInfo.info.isWriter = true <;>
    simp [SpyModel.newEndpointInfo, hw, DataStreamer.onWriterDiscovered]

theorem typesDiscovered_exec (env : External) (ts : TypeSupport τ π δ) (cfg : Configuration)
    (es : List (Event τ π)) (typeName : String) :
    (exec env ts cfg es).controller.model.typesDiscovered[typeName]? =
      registeredType ts typeName es := by
  induction es using List.reverseRecOn with
  | nil => simp [registeredType, SpyModel.empty, DataStreamer.empty]
  | append_singleton es e ih =>
      rw [exec_concat, registeredType_concat, ← ih]
      cases e with
      | newParticipantInfo info => rfl
      | newEndpointInfo endpointInfo =>
          simp only [step, setModel, typesDiscovered_newEndpointInfo, Event.typeNamed,
            Option.none_or]
      | addSchema ty =>
          by_cases hn : ts.getName ty = typeName
          · simp [step, setModel, DataStreamer.addSchema, Event.typeNamed, hn]
          · simp [step, setModel, DataStreamer.addSchema, Event.typeNamed,
              ExtTreeMap.getElem?_insert, hn]
      | addData topic data =>
          obtain ⟨instanceCache, hfst⟩ := DataStreamer.addData_fst env ts
            (exec env ts cfg es).controller.model.toDataStreamer topic data
          simp only [step, setModel, hfst, Event.typeNamed, Option.none_or]
      | input command arguments =>
          rw [(sameData_input env ts _ command arguments).typesDiscovered_eq]
          rfl

/-! ## Where the key fields come from -/

/-- The key fields that a sample on this topic name shows: those of its type, if it is
registered and has any. -/
def keysOfSample (ts : TypeSupport τ π δ) (topicName : String) (pre : List (Event τ π)) :
    Event τ π → Option (List String)
  | .addData topic _ =>
      if topic.topicName = topicName then
        ((registeredType ts topic.typeName pre).map (keyFieldNames ts)).filter (· ≠ [])
      else none
  | _ => none

/-- The key fields of the first type with key members through which a sample on this topic
name was processed. -/
def firstKeys (ts : TypeSupport τ π δ) (topicName : String) (es : List (Event τ π)) :
    List String :=
  (earliest (keysOfSample ts topicName) es).getD []

theorem firstKeys_concat (topicName : String) (es : List (Event τ π)) (e : Event τ π) :
    firstKeys ts topicName (es ++ [e]) =
      if firstKeys ts topicName es = [] then (keysOfSample ts topicName es e).getD []
      else firstKeys ts topicName es := by
  have hne : ∀ keys, earliest (keysOfSample ts topicName) es = some keys → keys ≠ [] := by
    intro keys
    apply of_earliest
    intro pre e keys hkeys
    cases e with
    | addData topic data =>
        simp only [keysOfSample] at hkeys
        split_ifs at hkeys
        simpa using (Option.filter_eq_some_iff.mp hkeys).2
    | _ => simp [keysOfSample] at hkeys
  rw [firstKeys, firstKeys, earliest_concat]
  cases hfirst : earliest (keysOfSample ts topicName) es with
  | none => simp
  | some keys => simp [hne keys hfirst]

/-- An event that shows no key fields. -/
theorem firstKeys_concat_of_none {topicName : String} {es : List (Event τ π)} {e : Event τ π}
    (h : keysOfSample ts topicName es e = none) :
    firstKeys ts topicName (es ++ [e]) = firstKeys ts topicName es := by
  rw [firstKeys, firstKeys, earliest_concat, h, Option.or_none]

theorem getTopicKeyFields_newEndpointInfo {κ : Type*} (m : SpyModel τ κ)
    (endpointInfo : EndpointInfoData) (topicName : String) :
    (m.newEndpointInfo endpointInfo).getTopicKeyFields topicName =
      m.getTopicKeyFields topicName := by
  by_cases hw : endpointInfo.info.isWriter = true <;>
    simp [SpyModel.newEndpointInfo, hw, DataStreamer.onWriterDiscovered,
      DataStreamer.getTopicKeyFields]

theorem getTopicKeyFields_addData {κ : Type*} (env : External) (ts : TypeSupport τ π δ)
    (ds : DataStreamer τ κ) (topic : DdsTopic) (data : RtpsPayloadData π) (topicName : String) :
    (DataStreamer.addData env ts ds topic data).1.getTopicKeyFields topicName =
      if topic.topicName = topicName ∧ ds.getTopicKeyFields topicName = [] then
        (ds.typesDiscovered[topic.typeName]?.map (keyFieldNames ts)).getD []
      else ds.getTopicKeyFields topicName := by
  rw [DataStreamer.getTopicKeyFields, DataStreamer.instanceCache_addData]
  cases hty : ds.typesDiscovered[topic.typeName]? with
  | none =>
      simp only [Option.map_none, Option.getD_none]
      split
      · rename_i hempty
        exact hempty.2
      · rfl
  | some ty =>
      have hspec := InstanceCache.addOrUpdateInstance_spec ts ds.instanceCache topic ty data
      simp only [hspec.keyFields_eq, DataStreamer.getTopicKeyFields, Option.map_some,
        Option.getD_some]
      by_cases hname : topic.topicName = topicName <;> simp [hname]

/-- The key fields of a topic name are those of the first type that had any. -/
theorem getTopicKeyFields_exec (env : External) (ts : TypeSupport τ π δ) (cfg : Configuration)
    (es : List (Event τ π)) (topicName : String) :
    (exec env ts cfg es).controller.model.getTopicKeyFields topicName =
      firstKeys ts topicName es := by
  induction es using List.reverseRecOn with
  | nil => simp [firstKeys, SpyModel.empty, DataStreamer.empty, DataStreamer.getTopicKeyFields,
      getKeyFields, InstanceCache.empty]
  | append_singleton es e ih =>
      rw [exec_concat]
      cases e with
      | newParticipantInfo info => exact ih.trans (firstKeys_concat_of_none rfl).symm
      | newEndpointInfo endpointInfo =>
          rw [firstKeys_concat_of_none rfl, ← ih]
          exact getTopicKeyFields_newEndpointInfo _ endpointInfo topicName
      | addSchema ty => exact ih.trans (firstKeys_concat_of_none rfl).symm
      | input command arguments =>
          rw [firstKeys_concat_of_none rfl, ← ih, DataStreamer.getTopicKeyFields,
            (sameData_input env ts _ command arguments).instanceCache_eq]
          rfl
      | addData topic data =>
          have hdata := getTopicKeyFields_addData env ts
            (exec env ts cfg es).controller.model.toDataStreamer topic data topicName
          rw [typesDiscovered_exec, ih] at hdata
          refine hdata.trans ?_
          by_cases hname : topic.topicName = topicName
          · rw [firstKeys_concat]
            simp only [hname, true_and, keysOfSample, if_true]
            cases registeredType ts topic.typeName es with
            | none => rfl
            | some ty => by_cases hkeys : keyFieldNames ts ty = [] <;> simp [hkeys, Option.filter]
          · have hnone : keysOfSample ts topicName es (.addData topic data) = none :=
              if_neg hname
            rw [firstKeys_concat_of_none hnone, if_neg (fun h => hname h.1)]

/-! ## The listing of the keys -/

/-- The topics for which `topics_keys` shows an entry: those with a registered type. -/
def topicsWithType {κ : Type*} (env : External) (m : SpyModel τ κ)
    (filterTopic : WildcardDdsFilterTopic) : List DdsTopic :=
  (getTopics env m filterTopic).toList.filter (fun topic => m.isAnyTopicTypeDiscovered
    (ExtTreeSet.insert (∅ : ExtTreeSet DdsTopic DdsTopic.cmp) topic))

/-- The entry that `topics_keys` shows for a topic. -/
def keysEntry {κ : Type*} (env : External) (m : SpyModel τ κ) (topic : DdsTopic) :
    TopicKeysData where
  topicName := displayedTopic env m topic.topicName
  keyFields := m.getTopicKeyFields topic.topicName
  instances := (m.getTopicInstances topic.topicName).toList
  instanceCount := (m.getTopicInstances topic.topicName).size

theorem topicsKeys_eq {κ : Type*} (env : External) (m : SpyModel τ κ)
    (filterTopic : WildcardDdsFilterTopic) :
    topicsKeys env m filterTopic = (topicsWithType env m filterTopic).map (keysEntry env m) := by
  unfold topicsKeys
  by_cases hempty : getTopics env m filterTopic = ∅
  · have hnil := ExtTreeSet.toList_eq_nil_iff.mpr hempty
    have htrue : (getTopics env m filterTopic).isEmpty = true := by simp [hempty]
    simp only [htrue, if_true, topicsWithType, hnil]
    rfl
  · have hne : (getTopics env m filterTopic).isEmpty = false :=
      ExtTreeSet.isEmpty_eq_false_iff.mpr hempty
    simp only [hne, if_false, Bool.false_eq_true]
    rfl

theorem isAnyTopicTypeDiscovered_iff {κ : Type*} {ds : DataStreamer τ κ}
    {topics : ExtTreeSet DdsTopic DdsTopic.cmp} : ds.isAnyTopicTypeDiscovered topics = true ↔
      ∃ topic ∈ topics, ds.typesDiscovered.contains topic.typeName = true := by
  rw [DataStreamer.isAnyTopicTypeDiscovered, List.any_eq_true]
  constructor
  · intro h
    obtain ⟨topic, hmem, hdiscovered⟩ := h
    exact ⟨topic, mem_iff_exists_mem_toList.mpr ⟨topic, hmem, ReflCmp.compare_self⟩, hdiscovered⟩
  · intro h
    obtain ⟨topic, hmem, hdiscovered⟩ := h
    obtain ⟨listed, hlisted, hcmp⟩ := mem_iff_exists_mem_toList.mp hmem
    exact ⟨listed, hlisted, (DdsTopic.cmp_eq_iff.mp hcmp).2 ▸ hdiscovered⟩

/-- The keys query finds nothing when no listed topic has a type that was discovered. -/
theorem isEmpty_topicsKeys {κ : Type*} (env : External) (m : SpyModel τ κ)
    (filterTopic : WildcardDdsFilterTopic) : (topicsKeys env m filterTopic).isEmpty =
      !m.isAnyTopicTypeDiscovered (getTopics env m filterTopic) := by
  have hone : ∀ topic, m.isAnyTopicTypeDiscovered
      (ExtTreeSet.insert (∅ : ExtTreeSet DdsTopic DdsTopic.cmp) topic) = true ↔
        m.typesDiscovered.contains topic.typeName = true := by
    intro topic
    rw [isAnyTopicTypeDiscovered_iff]
    constructor
    · intro h
      obtain ⟨topic', hmem, hdiscovered⟩ := h
      have hcmp : DdsTopic.cmp topic topic' = .eq := by simpa using hmem
      rwa [(DdsTopic.cmp_eq_iff.mp hcmp).2]
    · intro h
      exact ⟨topic, ExtTreeSet.mem_insert_self, h⟩
  rw [topicsKeys_eq, List.isEmpty_map, Bool.eq_iff_iff, List.isEmpty_iff, topicsWithType,
    List.filter_eq_nil_iff, Bool.not_eq_true', DataStreamer.isAnyTopicTypeDiscovered,
    List.any_eq_false]
  simp only [hone]

/-- The event is a sample of the topic whose type is registered. -/
def IsSampleOf (ts : TypeSupport τ π δ) (topic : DdsTopic) (pre : List (Event τ π))
    (e : Event τ π) : Prop :=
  registeredType ts topic.typeName pre ≠ none ∧
    ∃ topic' data, e = .addData topic' data ∧ DdsTopic.cmp topic' topic = .eq

/-- A sample of the topic was processed after a registration of its type. -/
def Sampled (ts : TypeSupport τ π δ) (es : List (Event τ π)) (topic : DdsTopic) : Prop :=
  Once (IsSampleOf ts topic) es

/-- A sample of the topic was processed after the last registration of its type. -/
def SampledSinceLast (ts : TypeSupport τ π δ) (es : List (Event τ π)) (topic : DdsTopic) : Prop :=
  Since (IsSampleOf ts topic) (fun _ e => e.typeNamed ts topic.typeName ≠ none) es

/-- In every listing of the keys, the entry of each of these topics shows the key members of
the type that is registered under its type name. -/
def KeysOwn (env : External) (ts : TypeSupport τ π δ) (cfg : Configuration)
    (es : List (Event τ π)) (topics : DdsTopic → Prop) : Prop :=
  ∀ filterTopic, List.Forall₂ (fun topic entry => topics topic → ∀ ty,
      registeredType ts topic.typeName es = some ty → entry.keyFields = keyFieldNames ts ty)
    (topicsWithType env (exec env ts cfg es).controller.model filterTopic)
    (topicsKeys env (exec env ts cfg es).controller.model filterTopic)

/-- For each of these topics that is listed, the first keyed type of its name has the key
members of the type that is registered under its type name. -/
def FirstKeysOwn (env : External) (ts : TypeSupport τ π δ) (cfg : Configuration)
    (es : List (Event τ π)) (topics : DdsTopic → Prop) : Prop :=
  ∀ filterTopic, ∀ topic ∈ topicsWithType env (exec env ts cfg es).controller.model filterTopic,
    topics topic → ∀ ty, registeredType ts topic.typeName es = some ty →
      firstKeys ts topic.topicName es = keyFieldNames ts ty

theorem keysOwn_iff (env : External) (ts : TypeSupport τ π δ) (cfg : Configuration)
    (es : List (Event τ π)) (topics : DdsTopic → Prop) :
    KeysOwn env ts cfg es topics ↔ FirstKeysOwn env ts cfg es topics := by
  refine forall_congr' fun filterTopic => ?_
  rw [topicsKeys_eq, List.forall₂_map_right_iff, List.forall₂_same]
  refine forall₂_congr fun topic _ => imp_congr_right fun _ => forall₂_congr fun ty _ => ?_
  rw [keysEntry, getTopicKeyFields_exec]

/-- In every reachable state, the key fields shown for the sampled topics are those of their
own types if and only if each has the keys of the first keyed type of its name; whether a
type that was replaced waits for a new sample or not. -/
theorem keysOwn_iff_firstKeysOwn (env : External) (ts : TypeSupport τ π δ) (cfg : Configuration)
    (es : List (Event τ π)) :
    (KeysOwn env ts cfg es (SampledSinceLast ts es) ↔
      FirstKeysOwn env ts cfg es (SampledSinceLast ts es)) ∧
    (KeysOwn env ts cfg es (Sampled ts es) ↔ FirstKeysOwn env ts cfg es (Sampled ts es)) :=
  ⟨keysOwn_iff env ts cfg es _, keysOwn_iff env ts cfg es _⟩

/-- Types given by a name and their key members. -/
def namedTypes : TypeSupport (String × List String) Unit Unit where
  getName ty := ty.1
  getAllMembers ty := some (ty.2.map (fun key => ⟨key, some true⟩))
  deserialize _ _ := some ()
  copyKeyMembers _ data := data
  jsonSerialize _ := some "\x7b\x7d"

/-- Two types with one key each, and a writer and a sample of each on one topic name. -/
def twoTypes : List (Event (String × List String) Unit) :=
  [.addSchema ("Keyed", ["id"]), .addSchema ("Other", ["key"]),
    .newEndpointInfo (writerOn ⟨1, 2⟩ keyedTopic), .newEndpointInfo (writerOn ⟨2, 2⟩ otherTopic),
    .addData keyedTopic (keyedSample ⟨1, 2⟩ 7), .addData otherTopic (keyedSample ⟨2, 2⟩ 7)]

/-- The second topic is shown with the key of the first one. -/
theorem not_keysOwn_twoTypes :
    ¬ KeysOwn literal namedTypes (withPartitions ∅) twoTypes
      (SampledSinceLast namedTypes twoTypes) := by
  intro h
  have hsampled : SampledSinceLast namedTypes twoTypes otherTopic :=
    ⟨twoTypes.take 5, .addData otherTopic (keyedSample ⟨2, 2⟩ 7), [], rfl,
      ⟨by decide, otherTopic, keyedSample ⟨2, 2⟩ 7, rfl, by decide⟩, by simp⟩
  have hfirst := (keysOwn_iff _ _ _ _ _).mp h {} otherTopic (by decide) hsampled
    ("Other", ["key"]) rfl
  exact absurd hfirst (by decide)

end Spy

end FastDdsSpy
