import FastDdsSpy.Verification.InstanceCache.Refinement
import FastDdsSpy.Verification.Instances

/-! # The fast path

A sample of an instance that is stored with a key is accepted without reading its payload.
The reference is the add without this shortcut: it serializes the key of every sample. -/

namespace FastDdsSpy.InstanceCache

open Std PastTime

variable {τ π δ : Type*} (ts : TypeSupport τ π δ)

/-! ## The add without the shortcut -/

/-- The check section without the shortcut for a cached instance. -/
def checkSectionSlow (c : InstanceCache) (topicName : String) (dynType : τ)
    (data : RtpsPayloadData π) : InstanceCache × CheckResult :=
  let c := extractKeyFieldNames ts c topicName dynType
  match c.keyFieldsCache[topicName]? with
  | some (_ :: _) =>
      let (c, topic) := topicInstances c topicName
      match topic.instances[data.instanceHandle]? with
      | some _ => (c, .slowPath topic.node)
      | none =>
          if topic.instances.size ≥ maxInstancesPerTopic then (c, .returned false)
          else (c, .slowPath topic.node)
  | _ =>
      ({ c with noKeyMetadataWarnedTopics := c.noKeyMetadataWarnedTopics.insert topicName },
        .returned false)

/-- The reference: `add_or_update_instance` that always serializes the key. -/
def addOrUpdateInstanceSlow (c : InstanceCache) (topic : DdsTopic) (dynType : Option τ)
    (data : RtpsPayloadData π) : InstanceCache × Bool :=
  match dynType with
  | none => (c, false)
  | some dynType =>
      match checkSectionSlow ts c topic.topicName dynType data with
      | (c, .returned result) => (c, result)
      | (c, .slowPath node) =>
          match pendingStore ts topic.topicName dynType data node with
          | none => (c, false)
          | some p => (storeSection c p, true)

variable {ts}

section Check

variable {c : InstanceCache} {t : String} {ty : τ} {data : RtpsPayloadData π}

/-- Off the fast path the shortcut is not taken. -/
theorem checkSectionSlow_of_not_fastPath (h : ¬ FastPath ts c t ty data.instanceHandle) :
    checkSectionSlow ts c t ty data = checkSection ts c t ty data := by
  by_cases hk : KeysKnown ts c t ty
  · obtain ⟨key, keys, hc⟩ := keyFieldsCache_of_known hk
    have hs := topicInstances_spec (extractKeyFieldNames ts c t ty) t
    have hget : (topicInstances (extractKeyFieldNames ts c t ty) t).2.instances[
        data.instanceHandle]? = lookup c t data.instanceHandle := by
      rw [← lookup_of_topic hs.held, hs.lookup_eq]
      simp [lookup]
    cases hl : lookup c t data.instanceHandle with
    | none => simp [checkSectionSlow, checkSection, hc, hget, hl]
    | some info =>
        have hrep : info.keyRepresentation = "" := by
          by_contra hne
          exact h ⟨hk, info, hl, hne⟩
        simp [checkSectionSlow, checkSection, hc, hget, hl, hrep]
  · have hnil : ∀ key keys, (extractKeyFieldNames ts c t ty).keyFieldsCache[t]? ≠
        some (key :: keys) := by
      intro key keys hsome
      apply (getKeyFields_extractKeyFieldNames_ne_nil ts c t ty).not.mpr hk
      simp [getKeyFields, hsome]
    rw [checkSection_of_not_known hk, checkSectionSlow]
    split
    · rename_i key keys hsome
      exact absurd hsome (hnil key keys)
    · rfl

/-- On the fast path the reference goes on to the slow path and has changed no instance. -/
theorem checkSectionSlow_of_fastPath (h : FastPath ts c t ty data.instanceHandle) :
    ∃ c' node, checkSectionSlow ts c t ty data = (c', .slowPath node) ∧
      nodeOf c' t = some node ∧ ∀ t' h', lookup c' t' h' = lookup c t' h' := by
  obtain ⟨hk, info, hl, -⟩ := h
  obtain ⟨key, keys, hc⟩ := keyFieldsCache_of_known hk
  have hs := topicInstances_spec (extractKeyFieldNames ts c t ty) t
  have hlookup : ∀ t' h', lookup (topicInstances (extractKeyFieldNames ts c t ty) t).1 t' h' =
      lookup c t' h' := by
    intro t' h'
    rw [hs.lookup_eq]
    simp [lookup]
  have hget : (topicInstances (extractKeyFieldNames ts c t ty) t).2.instances[
      data.instanceHandle]? = some info := by
    rw [← lookup_of_topic hs.held, hlookup, hl]
  refine ⟨_, (topicInstances (extractKeyFieldNames ts c t ty) t).2.node, ?_, ?_, hlookup⟩
  · simp [checkSectionSlow, hc, hget]
  · simp [nodeOf, hs.held]

end Check

/-! ## Agreement -/

/-- The code and the reference return the same and leave the same instances, with the same
keys and writers. -/
def AgreesWithSlow (ts : TypeSupport τ π δ) (c : InstanceCache) (topic : DdsTopic) (ty : τ)
    (data : RtpsPayloadData π) : Prop :=
  (addOrUpdateInstance ts c topic (some ty) data).2 =
      (addOrUpdateInstanceSlow ts c topic (some ty) data).2 ∧
    ∀ t h, lookup (addOrUpdateInstance ts c topic (some ty) data).1 t h =
      lookup (addOrUpdateInstanceSlow ts c topic (some ty) data).1 t h

section Agreement

variable {c : InstanceCache} {topic : DdsTopic} {ty : τ} {data : RtpsPayloadData π}

theorem agreesWithSlow_of_not_fastPath
    (h : ¬ FastPath ts c topic.topicName ty data.instanceHandle) :
    AgreesWithSlow ts c topic ty data := by
  have heq : addOrUpdateInstanceSlow ts c topic (some ty) data =
      addOrUpdateInstance ts c topic (some ty) data := by
    rw [addOrUpdateInstanceSlow, checkSectionSlow_of_not_fastPath h]
    rfl
  rw [AgreesWithSlow, heq]
  exact ⟨rfl, fun _ _ => rfl⟩

/-- On the fast path the code returns true and adds the writer, whatever the payload. -/
theorem addOrUpdateInstance_of_fastPath
    (h : FastPath ts c topic.topicName ty data.instanceHandle) :
    (addOrUpdateInstance ts c topic (some ty) data).2 = true ∧
      ∀ t' h', lookup (addOrUpdateInstance ts c topic (some ty) data).1 t' h' =
        if topic.topicName = t' ∧ data.instanceHandle = h' then
          (lookup c t' h').map (fun info => info.insertWriter data.sourceGuid)
        else lookup c t' h' := by
  have hspec := checkSection_spec ts c topic.topicName ty data
  have hfast := hspec.fastPath_iff.mpr h
  have heq : addOrUpdateInstance ts c topic (some ty) data =
      ((checkSection ts c topic.topicName ty data).1, true) := by
    cases hcheck : checkSection ts c topic.topicName ty data with
    | mk c' r =>
        rw [hcheck] at hfast
        obtain rfl : r = .returned true := hfast
        simp [addOrUpdateInstance, hcheck]
  rw [heq]
  refine ⟨rfl, fun t' h' => ?_⟩
  rw [hspec.lookup_fast h]
  split
  · next he => rw [he.1]
  · rfl

/-- On the fast path the reference refuses a payload without a key. -/
theorem addOrUpdateInstanceSlow_of_empty
    (h : FastPath ts c topic.topicName ty data.instanceHandle)
    (hkey : serializeKeyToJson ts ty data.payload = "") :
    (addOrUpdateInstanceSlow ts c topic (some ty) data).2 = false := by
  obtain ⟨c', node, hcheck, -, -⟩ := checkSectionSlow_of_fastPath h
  have hnone : pendingStore ts topic.topicName ty data node = none := pendingStore_eq_none.mpr hkey
  simp [addOrUpdateInstanceSlow, hcheck, hnone]

/-- On the fast path the reference stores the key of any other payload. -/
theorem addOrUpdateInstanceSlow_of_ne
    (h : FastPath ts c topic.topicName ty data.instanceHandle)
    (hkey : serializeKeyToJson ts ty data.payload ≠ "") :
    (addOrUpdateInstanceSlow ts c topic (some ty) data).2 = true ∧
      ∀ t' h', lookup (addOrUpdateInstanceSlow ts c topic (some ty) data).1 t' h' =
        if topic.topicName = t' ∧ data.instanceHandle = h' then
          (lookup c t' h').map (fun info => { info.insertWriter data.sourceGuid with
            keyRepresentation := serializeKeyToJson ts ty data.payload })
        else lookup c t' h' := by
  obtain ⟨c', node, hcheck, hnode, hlookup⟩ := checkSectionSlow_of_fastPath h
  cases hp : pendingStore ts topic.topicName ty data node with
  | none => exact absurd (pendingStore_eq_none.mp hp) hkey
  | some p =>
      obtain ⟨ht, hn, hh, hw, hj⟩ := pendingStore_eq_some hp
      have hlive : IsLive c' p := by
        rw [isLive_iff, ht, hn]
        exact hnode
      have heq : addOrUpdateInstanceSlow ts c topic (some ty) data =
          (storeSection c' p, true) := by
        simp [addOrUpdateInstanceSlow, hcheck, hp]
      rw [heq]
      refine ⟨rfl, fun t' h' => ?_⟩
      rw [lookup_storeSection hlive, hlookup, ht, hh]
      split
      · next he =>
          obtain ⟨info, hinfo, -⟩ := h.2
          rw [← he.1, ← he.2, hinfo]
          simp [storedInfo, InstanceInfo.insertWriter, hw, hj]
      · rfl

/-- The code agrees with the reference unless it takes the fast path with a payload that
does not serialize to the cached key. -/
theorem agreesWithSlow_iff : AgreesWithSlow ts c topic ty data ↔
    (FastPath ts c topic.topicName ty data.instanceHandle →
      (lookup c topic.topicName data.instanceHandle).map InstanceInfo.keyRepresentation =
        some (serializeKeyToJson ts ty data.payload)) := by
  by_cases hf : FastPath ts c topic.topicName ty data.instanceHandle
  · obtain ⟨hcode, hcodeLookup⟩ := addOrUpdateInstance_of_fastPath hf
    obtain ⟨-, info, hinfo, hne⟩ := id hf
    rw [forall_prop_of_true hf, hinfo, Option.map_some, Option.some.injEq]
    by_cases hkey : serializeKeyToJson ts ty data.payload = ""
    · refine iff_of_false (fun h => ?_) (fun h => hne (h.trans hkey))
      rw [AgreesWithSlow, hcode, addOrUpdateInstanceSlow_of_empty hf hkey] at h
      exact Bool.noConfusion h.1
    · obtain ⟨hslow, hslowLookup⟩ := addOrUpdateInstanceSlow_of_ne hf hkey
      simp only [AgreesWithSlow, hcode, hslow, hcodeLookup, hslowLookup, true_and]
      constructor
      · intro h
        have hentry := h topic.topicName data.instanceHandle
        rw [if_pos ⟨rfl, rfl⟩, if_pos ⟨rfl, rfl⟩, hinfo] at hentry
        exact congrArg InstanceInfo.keyRepresentation (Option.some.inj hentry)
      · intro h t' h'
        split
        · next he =>
            rw [← he.1, ← he.2, hinfo, Option.map_some, Option.map_some, ← h]
            rfl
        · rfl
  · exact iff_of_true (agreesWithSlow_of_not_fastPath hf) (fun h => absurd h hf)

end Agreement

/-! ## Reachable caches -/

/-- The samples of this type that were added with the handle of the sample have its key, as
far as they and the sample have one. -/
def KeysShared (ts : TypeSupport τ π δ) (ops : List (Op τ π)) (ty : τ)
    (data : RtpsPayloadData π) : Prop :=
  ∀ topic data', .add topic (some ty) data' ∈ ops → data'.instanceHandle = data.instanceHandle →
    serializeKeyToJson ts ty data'.payload ≠ "" → serializeKeyToJson ts ty data.payload ≠ "" →
      serializeKeyToJson ts ty data'.payload = serializeKeyToJson ts ty data.payload

/-- The samples that were added for the instance had this type. -/
def AddedWithType (ops : List (Op τ π)) (t : String) (h : InstanceHandle) (ty : τ) : Prop :=
  ∀ topic ty' data, .add topic (some ty') data ∈ ops → topic.topicName = t →
    data.instanceHandle = h → ty' = ty

/-- The key of a cached instance is that of a sample which was added for it. -/
theorem exists_add_of_createdWith {ops : List (Op τ π)} {t : String} {h : InstanceHandle}
    {key : String} (hcreated : CreatedWith ts t h key ops) : ∃ topic ty data,
      .add topic (some ty) data ∈ ops ∧ topic.topicName = t ∧ data.instanceHandle = h ∧
        serializeKeyToJson ts ty data.payload = key := by
  obtain ⟨pre, op, post, rfl, ⟨hadd, -, hrep⟩, -⟩ := hcreated
  cases op with
  | add topic dynType data =>
      obtain ⟨htopic, hhandle, -⟩ := hadd
      cases dynType with
      | none => simp [Op.rep] at hrep
      | some ty => exact ⟨topic, ty, data, by simp, htopic, hhandle, Option.some.inj hrep⟩
  | onWriterChanged | clear => exact absurd hadd id

/-- A payload of the type of the cached instance has the cached key if it has any. -/
theorem cachedKey_eq_iff {ops : List (Op τ π)} {topic : DdsTopic} {ty : τ}
    {data : RtpsPayloadData π} (hkeys : KeysShared ts ops ty data)
    (htype : AddedWithType ops topic.topicName data.instanceHandle ty)
    (hcached : Cached (exec ts ops) topic.topicName data.instanceHandle) :
    (lookup (exec ts ops) topic.topicName data.instanceHandle).map
        InstanceInfo.keyRepresentation = some (serializeKeyToJson ts ty data.payload) ↔
      serializeKeyToJson ts ty data.payload ≠ "" := by
  obtain ⟨info, hinfo, hne⟩ := hcached
  have hcreated : CreatedWith ts topic.topicName data.instanceHandle info.keyRepresentation
      ops := by
    rw [← map_lookup_iff_createdWith, hinfo, Option.map_some]
  obtain ⟨topic', ty', data', hmem, htopic, hhandle, hkey⟩ := exists_add_of_createdWith hcreated
  obtain rfl := htype topic' ty' data' hmem htopic hhandle
  rw [hinfo, Option.map_some, Option.some.injEq]
  constructor
  · intro heq
    rwa [← heq]
  · intro hserializes
    rw [← hkey]
    exact hkeys topic' data' hmem hhandle (hkey ▸ hne) hserializes

/-- In every reachable cache, the add agrees with the one that always serializes the key if
and only if the sample is not on the fast path or serializes to the cached key. On the fast
path the code accepts the sample and adds its writer. For a sample of the type of the
cached instance it is enough that its key serializes. -/
theorem fastPath_agrees_iff (ts : TypeSupport τ π δ) (ops : List (Op τ π)) (topic : DdsTopic)
    (ty : τ) (data : RtpsPayloadData π) :
    (AgreesWithSlow ts (exec ts ops) topic ty data ↔
      (FastPath ts (exec ts ops) topic.topicName ty data.instanceHandle →
        (lookup (exec ts ops) topic.topicName data.instanceHandle).map
            InstanceInfo.keyRepresentation = some (serializeKeyToJson ts ty data.payload))) ∧
    (FastPath ts (exec ts ops) topic.topicName ty data.instanceHandle →
      (addOrUpdateInstance ts (exec ts ops) topic (some ty) data).2 = true ∧
      ∀ t h, lookup (addOrUpdateInstance ts (exec ts ops) topic (some ty) data).1 t h =
        if topic.topicName = t ∧ data.instanceHandle = h then
          (lookup (exec ts ops) t h).map (fun info => info.insertWriter data.sourceGuid)
        else lookup (exec ts ops) t h) ∧
    (KeysShared ts ops ty data → AddedWithType ops topic.topicName data.instanceHandle ty →
      (AgreesWithSlow ts (exec ts ops) topic ty data ↔
        (FastPath ts (exec ts ops) topic.topicName ty data.instanceHandle →
          serializeKeyToJson ts ty data.payload ≠ ""))) := by
  refine ⟨agreesWithSlow_iff, addOrUpdateInstance_of_fastPath, fun hkeys htype => ?_⟩
  rw [agreesWithSlow_iff]
  exact forall_congr' fun hfast => cachedKey_eq_iff hkeys htype hfast.2

/-- A corrupt payload for an instance that is cached: the code returns true, and the
reference refuses it. -/
theorem not_agreesWithSlow_corrupt :
    (∀ payload payload' : Bool, serializeKeyToJson corruptibleType () payload ≠ "" →
      serializeKeyToJson corruptibleType () payload' ≠ "" →
        serializeKeyToJson corruptibleType () payload =
          serializeKeyToJson corruptibleType () payload') ∧
      (addOrUpdateInstance corruptibleType
        (exec corruptibleType [.add keyedTopic (some ()) ⟨⟨1, 2⟩, 7, 0, true⟩]) keyedTopic
          (some ()) ⟨⟨1, 3⟩, 7, 0, false⟩).2 = true ∧
      (addOrUpdateInstanceSlow corruptibleType
        (exec corruptibleType [.add keyedTopic (some ()) ⟨⟨1, 2⟩, 7, 0, true⟩]) keyedTopic
          (some ()) ⟨⟨1, 3⟩, 7, 0, false⟩).2 = false ∧
      ¬ AgreesWithSlow corruptibleType
        (exec corruptibleType [.add keyedTopic (some ()) ⟨⟨1, 2⟩, 7, 0, true⟩]) keyedTopic ()
          ⟨⟨1, 3⟩, 7, 0, false⟩ := by
  have hcode : (addOrUpdateInstance corruptibleType
      (exec corruptibleType [.add keyedTopic (some ()) ⟨⟨1, 2⟩, 7, 0, true⟩]) keyedTopic
        (some ()) ⟨⟨1, 3⟩, 7, 0, false⟩).2 = true := by decide
  have hslow : (addOrUpdateInstanceSlow corruptibleType
      (exec corruptibleType [.add keyedTopic (some ()) ⟨⟨1, 2⟩, 7, 0, true⟩]) keyedTopic
        (some ()) ⟨⟨1, 3⟩, 7, 0, false⟩).2 = false := by decide
  refine ⟨by decide, hcode, hslow, fun h => ?_⟩
  have hsame := h.1
  rw [hcode, hslow] at hsame
  exact Bool.noConfusion hsame

end FastDdsSpy.InstanceCache
