import FastDdsSpy.Model.InstanceCache
import Mathlib.Data.Set.Card

/-! # Computation rules for the instance cache

Every operation is described by what it does to three observations of the cache: the
entry of an instance, the number of handles of a topic, and the identity of the
per-topic map. -/

namespace FastDdsSpy.InstanceCache

open Std

variable {τ π δ : Type*} {ts : TypeSupport τ π δ}

/-! ## Observations -/

/-- The entry stored for a topic and a handle. -/
def lookup (c : InstanceCache) (t : String) (h : InstanceHandle) : Option InstanceInfo :=
  c.instancesByTopic[t]?.bind (fun topic => topic.instances[h]?)

/-- The number of handles stored for a topic. -/
def handleCount (c : InstanceCache) (t : String) : ℕ :=
  (c.instancesByTopic[t]?.map (fun topic => topic.instances.size)).getD 0

/-- The identity of the per-topic map. -/
def nodeOf (c : InstanceCache) (t : String) : Option ℕ :=
  c.instancesByTopic[t]?.map TopicInstances.node

/-- The instance is stored with a key, which is what the fast path asks for. -/
def Cached (c : InstanceCache) (t : String) (h : InstanceHandle) : Prop :=
  ∃ info, lookup c t h = some info ∧ info.keyRepresentation ≠ ""

/-- Key metadata is known for the topic or can be taken from the type. -/
def KeysKnown (ts : TypeSupport τ π δ) (c : InstanceCache) (t : String) (ty : τ) : Prop :=
  getKeyFields c t ≠ [] ∨ keyFieldNames ts ty ≠ []

/-- The cache with one per-topic map replaced. -/
def setTopic (c : InstanceCache) (t : String) (topic : TopicInstances) : InstanceCache :=
  { c with instancesByTopic := c.instancesByTopic.insert t topic }

section SetTopic

variable (c : InstanceCache) (t t' : String) (topic : TopicInstances) (h : InstanceHandle)

theorem lookup_setTopic :
    lookup (setTopic c t topic) t' h = if t = t' then topic.instances[h]? else lookup c t' h := by
  by_cases ht : t = t' <;> simp [lookup, setTopic, ExtTreeMap.getElem?_insert, ht]

theorem handleCount_setTopic :
    handleCount (setTopic c t topic) t' =
      if t = t' then topic.instances.size else handleCount c t' := by
  by_cases ht : t = t' <;> simp [handleCount, setTopic, ExtTreeMap.getElem?_insert, ht]

theorem nodeOf_setTopic :
    nodeOf (setTopic c t topic) t' = if t = t' then some topic.node else nodeOf c t' := by
  by_cases ht : t = t' <;> simp [nodeOf, setTopic, ExtTreeMap.getElem?_insert, ht]

end SetTopic

theorem lookup_of_topic {c : InstanceCache} {t : String} {topic : TopicInstances}
    (ht : c.instancesByTopic[t]? = some topic) (h : InstanceHandle) :
    lookup c t h = topic.instances[h]? := by
  simp [lookup, ht]

/-- The cache with one entry of a per-topic map replaced. -/
theorem lookup_setTopic_insert {c : InstanceCache} {t : String} {topic : TopicInstances}
    (ht : c.instancesByTopic[t]? = some topic) (h : InstanceHandle) (info : InstanceInfo)
    (t' : String) (h' : InstanceHandle) :
    lookup (setTopic c t { topic with instances := topic.instances.insert h info }) t' h' =
      if t = t' ∧ h = h' then some info else lookup c t' h' := by
  rw [lookup_setTopic]
  by_cases he : t = t'
  · subst t'
    by_cases hh : h = h'
    · simp [hh]
    · simp [lookup_of_topic ht, ExtTreeMap.getElem?_insert, hh]
  · simp [he]

theorem isLive_iff {c : InstanceCache} {p : PendingStore} :
    IsLive c p ↔ nodeOf c p.topicName = some p.node := Iff.rfl

/-! ## Key metadata -/

section ExtractKeyFieldNames

variable (ts) (c : InstanceCache) (t t' : String) (ty : τ)

@[simp] theorem instancesByTopic_extractKeyFieldNames :
    (extractKeyFieldNames ts c t ty).instancesByTopic = c.instancesByTopic := by
  unfold extractKeyFieldNames
  split <;> rfl

@[simp] theorem nextNode_extractKeyFieldNames :
    (extractKeyFieldNames ts c t ty).nextNode = c.nextNode := by
  unfold extractKeyFieldNames
  split <;> rfl

/-- Key metadata is sticky: it is only taken from the type when none is known. -/
theorem getKeyFields_extractKeyFieldNames :
    getKeyFields (extractKeyFieldNames ts c t ty) t' =
      if t = t' ∧ getKeyFields c t = [] then keyFieldNames ts ty else getKeyFields c t' := by
  by_cases ht : t = t'
  · subst t'
    cases hk : c.keyFieldsCache[t]? with
    | none => simp [extractKeyFieldNames, getKeyFields, hk]
    | some keys => cases keys <;> simp [extractKeyFieldNames, getKeyFields, hk]
  · unfold extractKeyFieldNames
    split <;> simp [getKeyFields, ExtTreeMap.getElem?_insert, ht]

theorem getKeyFields_extractKeyFieldNames_ne_nil :
    getKeyFields (extractKeyFieldNames ts c t ty) t ≠ [] ↔ KeysKnown ts c t ty := by
  rw [getKeyFields_extractKeyFieldNames, KeysKnown]
  by_cases h : getKeyFields c t = [] <;> simp [h]

end ExtractKeyFieldNames

/-! ## The per-topic map -/

/-- Every per-topic map was numbered by the counter. -/
def NodesBelow (c : InstanceCache) : Prop := ∀ t n, nodeOf c t = some n → n < c.nextNode

/-- `instances_by_topic_[t]` returns the map it leaves in the cache, which holds what
the cache held for the topic, and changes nothing else. -/
structure TopicSpec (c : InstanceCache) (t : String) (c' : InstanceCache)
    (topic : TopicInstances) : Prop where
  held : c'.instancesByTopic[t]? = some topic
  lookup_eq : ∀ t' h, lookup c' t' h = lookup c t' h
  handleCount_eq : ∀ t', handleCount c' t' = handleCount c t'
  nodeOf_eq : ∀ t', nodeOf c' t' = if t = t' then some ((nodeOf c t).getD c.nextNode)
    else nodeOf c t'
  nextNode_le : c.nextNode ≤ c'.nextNode
  nodesBelow : NodesBelow c → NodesBelow c'
  keyFieldsCache_eq : c'.keyFieldsCache = c.keyFieldsCache

theorem topicInstances_spec (c : InstanceCache) (t : String) :
    TopicSpec c t (topicInstances c t).1 (topicInstances c t).2 := by
  unfold topicInstances
  cases ht : c.instancesByTopic[t]? with
  | some topic =>
      refine ⟨ht, fun _ _ => rfl, fun _ => rfl, ?_, le_rfl, id, rfl⟩
      intro t'
      by_cases he : t = t'
      · subst t'
        simp [nodeOf, ht]
      · simp [he]
  | none =>
      refine ⟨by simp, ?_, ?_, ?_, Nat.le_succ _, ?_, rfl⟩
      · intro t' h
        by_cases he : t = t'
        · subst t'
          simp [lookup, ht]
        · simp [lookup, ExtTreeMap.getElem?_insert, he]
      · intro t'
        by_cases he : t = t'
        · subst t'
          simp [handleCount, ht]
        · simp [handleCount, ExtTreeMap.getElem?_insert, he]
      · intro t'
        by_cases he : t = t'
        · subst t'
          simp [nodeOf, ht]
        · simp [nodeOf, ExtTreeMap.getElem?_insert, he]
      · intro hc t' n hn
        by_cases he : t = t'
        · subst t'
          simp [nodeOf] at hn
          simp [← hn]
        · have hn' : nodeOf c t' = some n := by
            simpa [nodeOf, ExtTreeMap.getElem?_insert, he] using hn
          exact Nat.lt_succ_of_lt (hc t' n hn')

/-! ## The check section -/

/-- The fast path is the one case in which the check section registers the writer. -/
def FastPath (ts : TypeSupport τ π δ) (c : InstanceCache) (t : String) (ty : τ)
    (h : InstanceHandle) : Prop :=
  KeysKnown ts c t ty ∧ Cached c t h

/-- A new handle finds room, or the handle is stored already. -/
def HasRoom (c : InstanceCache) (t : String) (h : InstanceHandle) : Prop :=
  lookup c t h = none → handleCount c t < maxInstancesPerTopic

/-- What every outcome of the check section leaves alone: no handle is added or removed,
existing per-topic maps keep their identity, and key metadata is only added. -/
structure CheckFrame (ts : TypeSupport τ π δ) (c : InstanceCache) (t : String) (ty : τ)
    (c' : InstanceCache) : Prop where
  handleCount_eq : ∀ t', handleCount c' t' = handleCount c t'
  nodeOf_of_some : ∀ t' n, nodeOf c t' = some n → nodeOf c' t' = some n
  nodeOf_of_none : ∀ t', nodeOf c t' = none →
    nodeOf c' t' = none ∨ nodeOf c' t' = some c.nextNode
  nodesBelow : NodesBelow c → NodesBelow c'
  nextNode_le : c.nextNode ≤ c'.nextNode
  keyFields_eq : ∀ t', getKeyFields c' t' =
    if t = t' ∧ getKeyFields c t = [] then keyFieldNames ts ty else getKeyFields c t'

/-- What the check section does: it registers the writer on the fast path, takes the slow
path when a new instance would fit, and otherwise returns without touching an instance. -/
structure CheckSpec (ts : TypeSupport τ π δ) (c : InstanceCache) (t : String) (ty : τ)
    (data : RtpsPayloadData π) (c' : InstanceCache) (r : CheckResult) : Prop
    extends CheckFrame ts c t ty c' where
  fastPath_iff : r = .returned true ↔ FastPath ts c t ty data.instanceHandle
  slowPath_iff : (∃ n, r = .slowPath n) ↔
    KeysKnown ts c t ty ∧ ¬ Cached c t data.instanceHandle ∧ HasRoom c t data.instanceHandle
  node_eq : ∀ n, r = .slowPath n → nodeOf c' t = some n
  lookup_fast : FastPath ts c t ty data.instanceHandle → ∀ t' h, lookup c' t' h =
    if t = t' ∧ data.instanceHandle = h then
      (lookup c t h).map (fun info => info.insertWriter data.sourceGuid)
    else lookup c t' h
  lookup_slow : ¬ FastPath ts c t ty data.instanceHandle → ∀ t' h, lookup c' t' h = lookup c t' h

theorem checkFrame_extractKeyFieldNames (ts : TypeSupport τ π δ) (c : InstanceCache) (t : String)
    (ty : τ) : CheckFrame ts c t ty (extractKeyFieldNames ts c t ty) where
  handleCount_eq t' := by simp [handleCount]
  nodeOf_of_some t' n h := by simpa [nodeOf] using h
  nodeOf_of_none t' h := .inl (by simpa [nodeOf] using h)
  nodesBelow h := by simpa [NodesBelow, nodeOf] using h
  nextNode_le := by simp
  keyFields_eq t' := getKeyFields_extractKeyFieldNames ts c t t' ty

/-- Taking the per-topic map keeps the frame. -/
theorem CheckFrame.topicInstances {c c' c'' : InstanceCache} {t : String} {ty : τ}
    {topic : TopicInstances} (h : CheckFrame ts c t ty c') (hn : c'.nextNode = c.nextNode)
    (hs : TopicSpec c' t c'' topic) : CheckFrame ts c t ty c'' where
  handleCount_eq t' := by rw [hs.handleCount_eq, h.handleCount_eq]
  nodeOf_of_some t' n hsome := by
    have hold := h.nodeOf_of_some t' n hsome
    rw [hs.nodeOf_eq]
    split
    · rename_i ht
      subst t'
      simp [hold]
    · exact hold
  nodeOf_of_none t' hnone := by
    rw [hs.nodeOf_eq]
    split
    · rename_i ht
      subst t'
      rcases h.nodeOf_of_none t hnone with h' | h' <;> simp [h', hn]
    · exact h.nodeOf_of_none t' hnone
  nodesBelow hb := hs.nodesBelow (h.nodesBelow hb)
  nextNode_le := h.nextNode_le.trans hs.nextNode_le
  keyFields_eq t' := by
    rw [← h.keyFields_eq t', getKeyFields, getKeyFields, hs.keyFieldsCache_eq]

/-- Replacing an entry that is stored keeps the frame. -/
theorem CheckFrame.setTopic {c c' : InstanceCache} {t : String} {ty : τ}
    {topic : TopicInstances} {h : InstanceHandle} (hf : CheckFrame ts c t ty c')
    (ht : c'.instancesByTopic[t]? = some topic) (hmem : h ∈ topic.instances)
    (info : InstanceInfo) :
    CheckFrame ts c t ty
      (setTopic c' t { topic with instances := topic.instances.insert h info }) := by
  have hnode : ∀ t', nodeOf (InstanceCache.setTopic c' t
      { topic with instances := topic.instances.insert h info }) t' = nodeOf c' t' := by
    intro t'
    rw [nodeOf_setTopic]
    split
    · rename_i he
      subst t'
      simp [nodeOf, ht]
    · rfl
  refine ⟨?_, ?_, ?_, ?_, hf.nextNode_le, hf.keyFields_eq⟩
  · intro t'
    rw [handleCount_setTopic, ← hf.handleCount_eq]
    split
    · rename_i he
      subst t'
      simp [handleCount, ht, ExtTreeMap.size_insert, hmem]
    · rfl
  · intro t' n hsome
    rw [hnode]
    exact hf.nodeOf_of_some t' n hsome
  · intro t' hnone
    rw [hnode]
    exact hf.nodeOf_of_none t' hnone
  · intro hb t' n hn
    rw [hnode] at hn
    exact hf.nodesBelow hb t' n hn

theorem keyFieldsCache_of_known {c : InstanceCache} {t : String} {ty : τ}
    (hk : KeysKnown ts c t ty) : ∃ key keys,
      (extractKeyFieldNames ts c t ty).keyFieldsCache[t]? = some (key :: keys) := by
  have hne := (getKeyFields_extractKeyFieldNames_ne_nil ts c t ty).mpr hk
  cases hf : (extractKeyFieldNames ts c t ty).keyFieldsCache[t]? with
  | none => simp [getKeyFields, hf] at hne
  | some fields =>
      cases fields with
      | nil => simp [getKeyFields, hf] at hne
      | cons key keys => exact ⟨key, keys, rfl⟩

/-- Without key metadata the add ends here, with a warning. -/
theorem checkSection_of_not_known {c : InstanceCache} {t : String} {ty : τ}
    (hk : ¬ KeysKnown ts c t ty) (data : RtpsPayloadData π) : checkSection ts c t ty data =
      ({ extractKeyFieldNames ts c t ty with noKeyMetadataWarnedTopics :=
          (extractKeyFieldNames ts c t ty).noKeyMetadataWarnedTopics.insert t },
        .returned false) := by
  have hnil : getKeyFields (extractKeyFieldNames ts c t ty) t = [] := by
    by_contra hne
    exact hk ((getKeyFields_extractKeyFieldNames_ne_nil ts c t ty).mp hne)
  cases hf : (extractKeyFieldNames ts c t ty).keyFieldsCache[t]? with
  | none => simp [checkSection, hf]
  | some fields =>
      have hfields : fields = [] := by simpa [getKeyFields, hf] using hnil
      simp [checkSection, hf, hfields]

/-- An add whose instance is not cached registers nothing in its check section. -/
theorem CheckSpec.of_not_cached {c c' : InstanceCache} {t : String} {ty : τ}
    {data : RtpsPayloadData π} {r : CheckResult} (hframe : CheckFrame ts c t ty c')
    (hlookup : ∀ t' h, lookup c' t' h = lookup c t' h)
    (hnc : ¬ Cached c t data.instanceHandle) (hr : r ≠ .returned true)
    (hslow : (∃ n, r = .slowPath n) ↔ KeysKnown ts c t ty ∧ HasRoom c t data.instanceHandle)
    (hnode : ∀ n, r = .slowPath n → nodeOf c' t = some n) : CheckSpec ts c t ty data c' r where
  toCheckFrame := hframe
  fastPath_iff := iff_of_false hr (fun h => hnc h.2)
  slowPath_iff := by simp [hslow, hnc]
  node_eq := hnode
  lookup_fast h := absurd h.2 hnc
  lookup_slow _ := hlookup

theorem checkSection_spec (ts : TypeSupport τ π δ) (c : InstanceCache) (t : String) (ty : τ)
    (data : RtpsPayloadData π) :
    CheckSpec ts c t ty data (checkSection ts c t ty data).1 (checkSection ts c t ty data).2 := by
  have hframe := checkFrame_extractKeyFieldNames ts c t ty
  by_cases hk : KeysKnown ts c t ty
  · obtain ⟨key, keys, hc⟩ := keyFieldsCache_of_known hk
    have hs := topicInstances_spec (extractKeyFieldNames ts c t ty) t
    cases htop : topicInstances (extractKeyFieldNames ts c t ty) t with
    | mk c' topic =>
        rw [htop] at hs
        have hframe' := hframe.topicInstances (by simp) hs
        have hlookup : ∀ t' h, lookup c' t' h = lookup c t' h := by
          intro t' h
          rw [hs.lookup_eq]
          simp [lookup]
        have hget : topic.instances[data.instanceHandle]? = lookup c t data.instanceHandle := by
          rw [← hlookup, lookup_of_topic hs.held]
        have hsize : topic.instances.size = handleCount c t := by
          rw [← hframe'.handleCount_eq t]
          simp [handleCount, hs.held]
        have hnode : nodeOf c' t = some topic.node := by simp [nodeOf, hs.held]
        cases hl : lookup c t data.instanceHandle with
        | none =>
            have hnc : ¬ Cached c t data.instanceHandle := by simp [Cached, hl]
            by_cases hroom : handleCount c t < maxInstancesPerTopic
            · have heq : checkSection ts c t ty data = (c', .slowPath topic.node) := by
                simp [checkSection, hc, htop, hget, hl, hsize, Nat.not_le.mpr hroom]
              rw [heq]
              exact .of_not_cached hframe' hlookup hnc (by simp) (by simp [hk, HasRoom, hroom])
                (by simpa using hnode)
            · have heq : checkSection ts c t ty data = (c', .returned false) := by
                simp [checkSection, hc, htop, hget, hl, hsize, Nat.le_of_not_lt hroom]
              rw [heq]
              exact .of_not_cached hframe' hlookup hnc (by simp) (by simp [HasRoom, hl, hroom])
                (by simp)
        | some info =>
            by_cases hrep : info.keyRepresentation = ""
            · have hnc : ¬ Cached c t data.instanceHandle := by simp [Cached, hl, hrep]
              have heq : checkSection ts c t ty data = (c', .slowPath topic.node) := by
                simp [checkSection, hc, htop, hget, hl, hrep]
              rw [heq]
              exact .of_not_cached hframe' hlookup hnc (by simp) (by simp [hk, HasRoom, hl])
                (by simpa using hnode)
            · have hcached : Cached c t data.instanceHandle := ⟨info, hl, hrep⟩
              have heq : checkSection ts c t ty data = (setTopic c' t { topic with
                  instances := topic.instances.insert data.instanceHandle
                    (info.insertWriter data.sourceGuid) }, .returned true) := by
                simp [checkSection, hc, htop, hget, hl, hrep, setTopic]
              rw [heq]
              have hmem : data.instanceHandle ∈ topic.instances :=
                (ExtTreeMap.getElem?_eq_some_iff.mp (hget.trans hl)).fst
              refine ⟨hframe'.setTopic hs.held hmem _, by simp [FastPath, hk, hcached],
                by simp [hcached], by simp, fun _ => ?_, fun h => absurd ⟨hk, hcached⟩ h⟩
              intro t' h
              rw [lookup_setTopic_insert hs.held, hlookup]
              by_cases heq : t = t' ∧ data.instanceHandle = h
              · rw [if_pos heq, if_pos heq, ← heq.2, hl, Option.map_some]
              · rw [if_neg heq, if_neg heq]
  · rw [checkSection_of_not_known hk]
    refine ⟨⟨hframe.1, hframe.2, hframe.3, hframe.4, hframe.5, hframe.6⟩, by simp [FastPath, hk],
      by simp [hk], by simp, by simp [FastPath, hk], fun _ t' h => by simp [lookup]⟩

/-! ## The store section -/

theorem storeSection_of_not_live {c : InstanceCache} {p : PendingStore} (h : ¬ IsLive c p) :
    storeSection c p = c := by
  unfold storeSection
  split
  · rfl
  · rename_i topic ht
    have hn : topic.node ≠ p.node := by simpa [IsLive, ht] using h
    simp [hn]

/-- Through a live reference the section writes the one entry of the map in the cache. -/
theorem storeSection_of_live {c : InstanceCache} {p : PendingStore} (h : IsLive c p) :
    ∃ topic, c.instancesByTopic[p.topicName]? = some topic ∧ topic.node = p.node ∧
      storeSection c p = setTopic c p.topicName { topic with
        instances := topic.instances.insert p.instanceHandle
          (storedInfo p (lookup c p.topicName p.instanceHandle)) } := by
  cases ht : c.instancesByTopic[p.topicName]? with
  | none => simp [IsLive, ht] at h
  | some topic =>
      have hn : topic.node = p.node := by simpa [IsLive, ht] using h
      exact ⟨topic, rfl, hn, by simp [storeSection, ht, hn, setTopic, lookup]⟩

theorem lookup_storeSection {c : InstanceCache} {p : PendingStore} (h : IsLive c p)
    (t : String) (i : InstanceHandle) :
    lookup (storeSection c p) t i = if p.topicName = t ∧ p.instanceHandle = i then
      some (storedInfo p (lookup c t i)) else lookup c t i := by
  obtain ⟨topic, ht, -, heq⟩ := storeSection_of_live h
  rw [heq, lookup_setTopic_insert ht]
  by_cases hentry : p.topicName = t ∧ p.instanceHandle = i
  · rw [if_pos hentry, if_pos hentry, hentry.1, hentry.2]
  · rw [if_neg hentry, if_neg hentry]

@[simp] theorem nodeOf_storeSection (c : InstanceCache) (p : PendingStore) (t : String) :
    nodeOf (storeSection c p) t = nodeOf c t := by
  by_cases h : IsLive c p
  · obtain ⟨topic, ht, hn, heq⟩ := storeSection_of_live h
    rw [heq, nodeOf_setTopic]
    by_cases htop : p.topicName = t
    · subst t
      simp [nodeOf, ht]
    · simp [htop]
  · rw [storeSection_of_not_live h]

@[simp] theorem nextNode_storeSection (c : InstanceCache) (p : PendingStore) :
    (storeSection c p).nextNode = c.nextNode := by
  unfold storeSection
  split
  · rfl
  · split <;> rfl

@[simp] theorem getKeyFields_storeSection (c : InstanceCache) (p : PendingStore) (t : String) :
    getKeyFields (storeSection c p) t = getKeyFields c t := by
  unfold storeSection
  split
  · rfl
  · split <;> rfl

theorem handleCount_storeSection {c : InstanceCache} {p : PendingStore} (h : IsLive c p)
    (t : String) :
    handleCount (storeSection c p) t =
      if p.topicName = t ∧ lookup c t p.instanceHandle = none then handleCount c t + 1
      else handleCount c t := by
  obtain ⟨topic, ht, -, heq⟩ := storeSection_of_live h
  rw [heq, handleCount_setTopic]
  by_cases htop : p.topicName = t
  · subst t
    have hcount : handleCount c p.topicName = topic.instances.size := by simp [handleCount, ht]
    rw [lookup_of_topic ht, hcount, ExtTreeMap.size_insert]
    by_cases hmem : p.instanceHandle ∈ topic.instances <;> simp [hmem]
  · simp [htop]

/-! ## Removal of a writer and `clear` -/

theorem lookup_onWriterChanged (c : InstanceCache) (w : Guid) (t t' : String)
    (h : InstanceHandle) :
    lookup (onWriterChanged c w t false) t' h =
      if t = t' then (lookup c t' h).bind (eraseWriter w) else lookup c t' h := by
  cases ht : c.instancesByTopic[t]? with
  | none =>
      by_cases he : t = t'
      · subst t'
        simp [onWriterChanged, lookup, ht]
      · simp [onWriterChanged, ht, he]
  | some topic =>
      have heq : onWriterChanged c w t false = setTopic c t { topic with
          instances := topic.instances.filterMap (fun _ info => eraseWriter w info) } := by
        simp [onWriterChanged, ht, setTopic]
      rw [heq, lookup_setTopic]
      by_cases he : t = t'
      · subst t'
        rw [lookup_of_topic ht]
        simp
      · simp [he]

@[simp] theorem onWriterChanged_active (c : InstanceCache) (w : Guid) (t : String) :
    onWriterChanged c w t true = c := rfl

@[simp] theorem nodeOf_onWriterChanged (c : InstanceCache) (w : Guid) (t : String)
    (active : Bool) (t' : String) : nodeOf (onWriterChanged c w t active) t' = nodeOf c t' := by
  unfold onWriterChanged
  split
  · rfl
  · cases ht : c.instancesByTopic[t]? with
    | none => rfl
    | some topic =>
        by_cases he : t = t' <;> simp [nodeOf, ExtTreeMap.getElem?_insert, he]
        subst t'
        simp [ht]

@[simp] theorem nextNode_onWriterChanged (c : InstanceCache) (w : Guid) (t : String)
    (active : Bool) : (onWriterChanged c w t active).nextNode = c.nextNode := by
  unfold onWriterChanged
  split
  · rfl
  · split <;> rfl

@[simp] theorem getKeyFields_onWriterChanged (c : InstanceCache) (w : Guid) (t : String)
    (active : Bool) (t' : String) :
    getKeyFields (onWriterChanged c w t active) t' = getKeyFields c t' := by
  unfold onWriterChanged
  split
  · rfl
  · split <;> rfl

/-- The handles of a topic that the removal of a writer leaves without a writer. -/
def soleCount (c : InstanceCache) (w : Guid) (t : String) : ℕ :=
  (c.instancesByTopic[t]?.map fun topic =>
    topic.instances.toList.countP fun entry => (eraseWriter w entry.2).isNone).getD 0

theorem handleCount_onWriterChanged (c : InstanceCache) (w : Guid) (t t' : String) :
    handleCount (onWriterChanged c w t false) t' + (if t = t' then soleCount c w t' else 0) =
      handleCount c t' := by
  cases ht : c.instancesByTopic[t]? with
  | none =>
      by_cases he : t = t'
      · subst t'
        simp [onWriterChanged, handleCount, soleCount, ht]
      · simp [onWriterChanged, ht, he]
  | some topic =>
      have heq : onWriterChanged c w t false = setTopic c t { topic with
          instances := topic.instances.filterMap (fun _ info => eraseWriter w info) } := by
        simp [onWriterChanged, ht, setTopic]
      rw [heq, handleCount_setTopic]
      by_cases he : t = t'
      · subst t'
        have hkept : (topic.instances.filterMap fun _ info => eraseWriter w info).size =
            topic.instances.toList.countP fun entry => (eraseWriter w entry.2).isSome := by
          rw [← ExtTreeMap.length_toList, ExtTreeMap.toList_filterMap,
            List.length_filterMap_eq_countP]
          simp
        have hall := topic.instances.toList.length_eq_countP_add_countP
          fun entry => (eraseWriter w entry.2).isSome
        rw [ExtTreeMap.length_toList] at hall
        simp only [handleCount, soleCount, ht, hkept, hall, ite_true, Option.map_some,
          Option.getD_some, Nat.add_left_cancel_iff]
        exact List.countP_congr fun entry _ => by simp
      · simp [he]

@[simp] theorem lookup_clear (c : InstanceCache) (t : String) (h : InstanceHandle) :
    lookup c.clear t h = none := by
  simp [lookup, clear]

@[simp] theorem nodeOf_clear (c : InstanceCache) (t : String) : nodeOf c.clear t = none := by
  simp [nodeOf, clear]

@[simp] theorem handleCount_clear (c : InstanceCache) (t : String) : handleCount c.clear t = 0 := by
  simp [handleCount, clear]

@[simp] theorem getKeyFields_clear (c : InstanceCache) (t : String) :
    getKeyFields c.clear t = [] := by
  simp [getKeyFields, clear]

/-! ## Queries -/

/-- The handles stored for a topic. -/
def handles (c : InstanceCache) (t : String) : Set InstanceHandle :=
  {h | lookup c t h ≠ none}

theorem ncard_handles (c : InstanceCache) (t : String) : (handles c t).ncard = handleCount c t := by
  cases ht : c.instancesByTopic[t]? with
  | none => simp [handles, lookup, handleCount, ht]
  | some topic =>
      have hset : handles c t = ↑topic.instances.keys.toFinset := by
        ext h
        simp [handles, lookup_of_topic ht]
      rw [hset, Set.ncard_coe_finset, List.toFinset_card_of_nodup ExtTreeMap.nodup_keys,
        ExtTreeMap.length_keys]
      simp [handleCount, ht]

theorem mem_foldl_activeInstances (entries : List (InstanceHandle × InstanceInfo))
    (result : ExtTreeSet String) (key : String) :
    key ∈ entries.foldl (fun result entry =>
        if entry.2.activeWriters.isEmpty then result
        else result.insert entry.2.keyRepresentation) result ↔
      key ∈ result ∨ ∃ entry ∈ entries,
        entry.2.activeWriters ≠ ∅ ∧ entry.2.keyRepresentation = key := by
  induction entries generalizing result with
  | nil => simp
  | cons entry entries ih =>
      rw [List.foldl_cons, ih]
      by_cases hw : entry.2.activeWriters = ∅
      · simp [hw]
      · have hne : entry.2.activeWriters.isEmpty = false := by
          simpa [ExtTreeSet.isEmpty_eq_false_iff] using hw
        simp [hne, hw, or_assoc, or_left_comm]

theorem mem_getActiveInstances (c : InstanceCache) (t key : String) :
    key ∈ getActiveInstances c t ↔ ∃ h info, lookup c t h = some info ∧
      info.activeWriters ≠ ∅ ∧ info.keyRepresentation = key := by
  cases ht : c.instancesByTopic[t]? with
  | none => simp [getActiveInstances, lookup, ht]
  | some topic =>
      simp only [getActiveInstances, ht, ExtTreeMap.foldl_eq_foldl_toList,
        mem_foldl_activeInstances, lookup_of_topic ht]
      simp [ExtTreeMap.mem_toList_iff_getElem?_eq_some]

end FastDdsSpy.InstanceCache
