import FastDdsSpy.Library.PastTime
import FastDdsSpy.Verification.InstanceCache.Writers

/-! # The cache as a relation of registrations

Operations that run one at a time are specified by their history alone: an add is
accepted, a writer is registered and a key is reported according to which adds succeeded,
which writers were removed and when the cache was cleared. -/

namespace FastDdsSpy.InstanceCache

open Std PastTime

variable {τ π δ : Type*} {ts : TypeSupport τ π δ}

/-! ## The add as a whole -/

/-- The add succeeds: its topic has key metadata, and the instance is stored already or
fits in and has a key that serializes. -/
def Accepts (ts : TypeSupport τ π δ) (c : InstanceCache) (t : String) (ty : τ)
    (data : RtpsPayloadData π) : Prop :=
  KeysKnown ts c t ty ∧ (Cached c t data.instanceHandle ∨
    (HasRoom c t data.instanceHandle ∧ serializeKeyToJson ts ty data.payload ≠ ""))

/-- The instance that the add writes, which is the only one to change. -/
structure AddSpec (ts : TypeSupport τ π δ) (c : InstanceCache) (t : String) (ty : τ)
    (data : RtpsPayloadData π) (c' : InstanceCache) (result : Bool) : Prop where
  result_iff : result = true ↔ Accepts ts c t ty data
  wellFormed : WellFormed c → WellFormed c'
  hasWriter_iff : ∀ t' h w, HasWriter c' t' h w ↔ HasWriter c t' h w ∨
    (result = true ∧ t = t' ∧ data.instanceHandle = h ∧ data.sourceGuid = w)
  key_created : result = true → ¬ Cached c t data.instanceHandle →
    (lookup c' t data.instanceHandle).map InstanceInfo.keyRepresentation =
      some (serializeKeyToJson ts ty data.payload)
  key_kept : ∀ t' h, ¬ (result = true ∧ t = t' ∧ data.instanceHandle = h ∧ ¬ Cached c t h) →
    (lookup c' t' h).map InstanceInfo.keyRepresentation =
      (lookup c t' h).map InstanceInfo.keyRepresentation
  keyFields_eq : ∀ t', getKeyFields c' t' =
    if t = t' ∧ getKeyFields c t = [] then keyFieldNames ts ty else getKeyFields c t'

theorem pendingStore_eq_none {t : String} {ty : τ} {data : RtpsPayloadData π} {node : ℕ} :
    pendingStore ts t ty data node = none ↔ serializeKeyToJson ts ty data.payload = "" := by
  by_cases h : serializeKeyToJson ts ty data.payload = "" <;> simp [pendingStore, h]

theorem pendingStore_eq_some {t : String} {ty : τ} {data : RtpsPayloadData π} {node : ℕ}
    {p : PendingStore} (h : pendingStore ts t ty data node = some p) :
    p.topicName = t ∧ p.node = node ∧ p.instanceHandle = data.instanceHandle ∧
      p.writerGuid = data.sourceGuid ∧ p.keyJson = serializeKeyToJson ts ty data.payload := by
  unfold pendingStore at h
  split at h
  · obtain rfl := Option.some.inj h
    exact ⟨rfl, rfl, rfl, rfl, rfl⟩
  · simp at h

/-- The check section changes no key. -/
theorem CheckSpec.map_lookup_eq {c c' : InstanceCache} {t : String} {ty : τ}
    {data : RtpsPayloadData π} {r : CheckResult} (hspec : CheckSpec ts c t ty data c' r)
    (t' : String) (h : InstanceHandle) :
    (lookup c' t' h).map InstanceInfo.keyRepresentation =
      (lookup c t' h).map InstanceInfo.keyRepresentation := by
  by_cases hf : FastPath ts c t ty data.instanceHandle
  · rw [hspec.lookup_fast hf]
    split
    · rename_i he
      rw [← he.1, Option.map_map]
      rfl
    · rfl
  · rw [hspec.lookup_slow hf]

/-- An add that ends in its check section. -/
theorem AddSpec.of_returned {c c' : InstanceCache} {t : String} {ty : τ}
    {data : RtpsPayloadData π} {result : Bool}
    (hspec : CheckSpec ts c t ty data c' (.returned result)) (hwf : WellFormed c → WellFormed c')
    (hwriter : ∀ t' h w, HasWriter c' t' h w ↔ HasWriter c t' h w ∨
      (FastPath ts c t ty data.instanceHandle ∧
        t = t' ∧ data.instanceHandle = h ∧ data.sourceGuid = w)) :
    AddSpec ts c t ty data c' result := by
  have hfast : result = true ↔ FastPath ts c t ty data.instanceHandle := by
    simpa using hspec.fastPath_iff
  have hslow : ¬ (KeysKnown ts c t ty ∧ ¬ Cached c t data.instanceHandle ∧
      HasRoom c t data.instanceHandle) := by
    rw [← hspec.slowPath_iff]
    simp
  refine ⟨?_, hwf, ?_, ?_, fun t' h _ => hspec.map_lookup_eq t' h, hspec.keyFields_eq⟩
  · rw [hfast, FastPath, Accepts]
    tauto
  · simpa [hfast] using hwriter
  · intro hr hnc
    exact absurd (hfast.mp hr).2 hnc

/-- An add that stores what its check section prepared, with nothing in between. -/
theorem AddSpec.of_stored {c c' : InstanceCache} {t : String} {ty : τ}
    {data : RtpsPayloadData π} {node : ℕ} {p : PendingStore}
    (hspec : CheckSpec ts c t ty data c' (.slowPath node)) (hwf : WellFormed c → WellFormed c')
    (hp : pendingStore ts t ty data node = some p) :
    AddSpec ts c t ty data (storeSection c' p) true := by
  obtain ⟨ht, hn, hh, hw, hj⟩ := pendingStore_eq_some hp
  obtain ⟨hk, hnc, hroom⟩ := hspec.slowPath_iff.mp ⟨node, rfl⟩
  have hlookup := hspec.lookup_slow (fun h => hnc h.2)
  have hlive : IsLive c' p := by
    simpa [isLive_iff, ht, hn] using hspec.node_eq node rfl
  refine ⟨?_, fun hc => (hwf hc).storeSection p, ?_, ?_, ?_, ?_⟩
  · exact iff_of_true rfl ⟨hk, .inr ⟨hroom, hj ▸ p.keyJson_ne⟩⟩
  · intro t' h w
    rw [hasWriter_storeSection hlive, ht, hh, hw]
    simp [HasWriter, hlookup]
  · intro _ _
    rw [lookup_storeSection hlive, if_pos ⟨ht, hh⟩]
    simp [hj]
  · intro t' h hne
    rw [lookup_storeSection hlive, if_neg, hlookup]
    intro he
    obtain ⟨rfl, rfl⟩ := he
    exact hne ⟨rfl, ht.symm, hh.symm, by rwa [hh]⟩
  · intro t'
    rw [getKeyFields_storeSection, hspec.keyFields_eq]

theorem addOrUpdateInstance_spec (ts : TypeSupport τ π δ) (c : InstanceCache) (topic : DdsTopic)
    (ty : τ) (data : RtpsPayloadData π) :
    AddSpec ts c topic.topicName ty data (addOrUpdateInstance ts c topic (some ty) data).1
      (addOrUpdateInstance ts c topic (some ty) data).2 := by
  have hspec := checkSection_spec ts c topic.topicName ty data
  have hwriter := hasWriter_checkSection ts c topic.topicName ty data
  have hwf : WellFormed c → WellFormed (checkSection ts c topic.topicName ty data).1 :=
    fun hc => hc.checkSection topic.topicName ty data
  cases hcheck : checkSection ts c topic.topicName ty data with
  | mk c' r =>
      simp only [hcheck] at hspec hwriter hwf
      cases r with
      | returned result =>
          have heq : addOrUpdateInstance ts c topic (some ty) data = (c', result) := by
            simp [addOrUpdateInstance, hcheck]
          rw [heq]
          exact .of_returned hspec hwf hwriter
      | slowPath node =>
          cases hp : pendingStore ts topic.topicName ty data node with
          | none =>
              obtain ⟨-, hnc, -⟩ := hspec.slowPath_iff.mp ⟨node, rfl⟩
              have hf : ¬ FastPath ts c topic.topicName ty data.instanceHandle :=
                fun h => hnc h.2
              have heq : addOrUpdateInstance ts c topic (some ty) data = (c', false) := by
                simp [addOrUpdateInstance, hcheck, hp]
              rw [heq]
              exact ⟨by simp [Accepts, hnc, pendingStore_eq_none.mp hp], hwf,
                by simpa [hf] using hwriter, by simp, fun t' h _ => hspec.map_lookup_eq t' h,
                hspec.keyFields_eq⟩
          | some p =>
              have heq : addOrUpdateInstance ts c topic (some ty) data =
                  (storeSection c' p, true) := by
                simp [addOrUpdateInstance, hcheck, hp]
              rw [heq]
              exact .of_stored hspec hwf hp

/-! ## Histories -/

/-- A call of one of the three operations that change the cache. -/
inductive Op (τ π : Type*)
  | add (topic : DdsTopic) (dynType : Option τ) (data : RtpsPayloadData π)
  | onWriterChanged (writerGuid : Guid) (topicName : String) (active : Bool)
  | clear

def apply (ts : TypeSupport τ π δ) (c : InstanceCache) : Op τ π → InstanceCache
  | .add topic dynType data => (addOrUpdateInstance ts c topic dynType data).1
  | .onWriterChanged writerGuid topicName active => c.onWriterChanged writerGuid topicName active
  | .clear => c.clear

/-- The cache after a sequence of calls, from an empty one. -/
def exec (ts : TypeSupport τ π δ) (ops : List (Op τ π)) : InstanceCache :=
  run (apply ts) empty ops

@[simp] theorem exec_nil : exec ts ([] : List (Op τ π)) = empty := rfl

@[simp] theorem exec_concat (ops : List (Op τ π)) (op : Op τ π) :
    exec ts (ops ++ [op]) = apply ts (exec ts ops) op := by
  simp [exec]

/-- The call is an add for the instance that returns true on the cache. -/
def AddSucceeds (ts : TypeSupport τ π δ) (c : InstanceCache) (t : String) (h : InstanceHandle) :
    Op τ π → Prop
  | .add topic dynType data => topic.topicName = t ∧ data.instanceHandle = h ∧
      (addOrUpdateInstance ts c topic dynType data).2 = true
  | _ => False

/-- The writer of the sample that the call adds. -/
def Op.writer : Op τ π → Option Guid
  | .add _ _ data => some data.sourceGuid
  | _ => none

/-- The string that the call's sample would be reported under. -/
def Op.rep (ts : TypeSupport τ π δ) : Op τ π → Option String
  | .add _ (some ty) data => some (serializeKeyToJson ts ty data.payload)
  | _ => none

/-- Among the successful adds of the writer for the instance, its removals on the topic
and the clears, the last one is an add. -/
def Registered (ts : TypeSupport τ π δ) (t : String) (h : InstanceHandle) (w : Guid)
    (ops : List (Op τ π)) : Prop :=
  Since (fun pre op => AddSucceeds ts (exec ts pre) t h op ∧ op.writer = some w)
    (fun _ op => op = .onWriterChanged w t false ∨ op = .clear) ops

/-- A handle is stored for a topic when some writer is registered for it. -/
def Stored (ts : TypeSupport τ π δ) (t : String) (ops : List (Op τ π)) : Set InstanceHandle :=
  {h | ∃ w, Registered ts t h w ops}

/-- Since the last clear, an add on the topic had a type with key members. -/
def KeysSeen (ts : TypeSupport τ π δ) (t : String) (ops : List (Op τ π)) : Prop :=
  Since (fun _ op => ∃ topic ty data, op = .add topic (some ty) data ∧ topic.topicName = t ∧
    keyFieldNames ts ty ≠ []) (fun _ op => op = .clear) ops

/-- The instance has been stored without interruption since an add that found it absent
and gave it this key. -/
def CreatedWith (ts : TypeSupport τ π δ) (t : String) (h : InstanceHandle) (key : String)
    (ops : List (Op τ π)) : Prop :=
  Since (fun pre op => AddSucceeds ts (exec ts pre) t h op ∧ h ∉ Stored ts t pre ∧
    op.rep ts = some key) (fun pre op => h ∉ Stored ts t (pre ++ [op])) ops

/-! ## What the cache knows of its history -/

section Concat

variable {t : String} {h : InstanceHandle} {w : Guid} {key : String} {ops : List (Op τ π)}
  {op : Op τ π}

theorem registered_concat : Registered ts t h w (ops ++ [op]) ↔
    (AddSucceeds ts (exec ts ops) t h op ∧ op.writer = some w) ∨
      (Registered ts t h w ops ∧ ¬ (op = .onWriterChanged w t false ∨ op = .clear)) :=
  since_concat

theorem keysSeen_concat : KeysSeen ts t (ops ++ [op]) ↔
    (∃ topic ty data, op = .add topic (some ty) data ∧ topic.topicName = t ∧
      keyFieldNames ts ty ≠ []) ∨ (KeysSeen ts t ops ∧ ¬ op = .clear) :=
  since_concat

theorem createdWith_concat : CreatedWith ts t h key (ops ++ [op]) ↔
    (AddSucceeds ts (exec ts ops) t h op ∧ h ∉ Stored ts t ops ∧ op.rep ts = some key) ∨
      (CreatedWith ts t h key ops ∧ ¬ h ∉ Stored ts t (ops ++ [op])) :=
  since_concat

end Concat

theorem wellFormed_apply {c : InstanceCache} (hc : WellFormed c) (op : Op τ π) :
    WellFormed (apply ts c op) := by
  cases op with
  | add topic dynType data =>
      cases dynType with
      | none => exact hc
      | some ty => exact (addOrUpdateInstance_spec ts c topic ty data).wellFormed hc
  | onWriterChanged w t active => exact hc.onWriterChanged w t active
  | clear => exact wellFormed_clear c

theorem wellFormed_exec (ops : List (Op τ π)) : WellFormed (exec ts ops) :=
  run_induction WellFormed (fun _ op hc => wellFormed_apply hc op) wellFormed_empty ops

theorem hasWriter_iff_registered (ops : List (Op τ π)) (t : String) (h : InstanceHandle)
    (w : Guid) : HasWriter (exec ts ops) t h w ↔ Registered ts t h w ops := by
  induction ops using List.reverseRecOn with
  | nil => exact iff_of_false (by simp [HasWriter]) not_since_nil
  | append_singleton ops op ih =>
      rw [registered_concat, ← ih, exec_concat]
      cases op with
      | add topic dynType data =>
          cases dynType with
          | none => simp [apply, addOrUpdateInstance, AddSucceeds]
          | some ty =>
              rw [apply, (addOrUpdateInstance_spec ts (exec ts ops) topic ty data).hasWriter_iff]
              simp only [AddSucceeds, Op.writer, Option.some.injEq, reduceCtorEq, or_self,
                not_false_eq_true, and_true]
              tauto
      | onWriterChanged w' t' active =>
          cases active with
          | true => simp [apply, AddSucceeds]
          | false =>
              rw [apply, hasWriter_onWriterChanged]
              simp [AddSucceeds, and_comm]
      | clear => simp [apply, AddSucceeds]

theorem stored_eq_handles (ops : List (Op τ π)) (t : String) :
    Stored ts t ops = handles (exec ts ops) t := by
  ext h
  simp only [Stored, handles, Set.mem_ofPred_eq, (wellFormed_exec ops).lookup_ne_none_iff,
    hasWriter_iff_registered]

theorem mem_stored_iff {ops : List (Op τ π)} {t : String} {h : InstanceHandle} :
    h ∈ Stored ts t ops ↔ lookup (exec ts ops) t h ≠ none := by
  rw [stored_eq_handles]
  exact Iff.rfl

theorem getKeyFields_ne_nil_iff_keysSeen (ops : List (Op τ π)) (t : String) :
    getKeyFields (exec ts ops) t ≠ [] ↔ KeysSeen ts t ops := by
  induction ops using List.reverseRecOn with
  | nil => exact iff_of_false (by simp [getKeyFields, empty]) not_since_nil
  | append_singleton ops op ih =>
      rw [keysSeen_concat, ← ih, exec_concat]
      cases op with
      | add topic dynType data =>
          cases dynType with
          | none => simp [apply, addOrUpdateInstance]
          | some ty =>
              rw [apply, (addOrUpdateInstance_spec ts (exec ts ops) topic ty data).keyFields_eq]
              by_cases ht : topic.topicName = t
              · subst ht
                by_cases hk : getKeyFields (exec ts ops) topic.topicName = []
                · simp [hk]
                · simp [hk]
              · simp [ht]
      | onWriterChanged w t' active => simp [apply]
      | clear => simp [apply]

theorem map_lookup_apply_of_created {c : InstanceCache} {t : String} {h : InstanceHandle}
    {op : Op τ π} (hadd : AddSucceeds ts c t h op) (hnone : lookup c t h = none) :
    (lookup (apply ts c op) t h).map InstanceInfo.keyRepresentation = op.rep ts := by
  cases op with
  | add topic dynType data =>
      obtain ⟨rfl, rfl, hr⟩ := hadd
      cases dynType with
      | none => simp [addOrUpdateInstance] at hr
      | some ty =>
          exact (addOrUpdateInstance_spec ts c topic ty data).key_created hr
            (by simp [Cached, hnone])
  | onWriterChanged | clear => exact absurd hadd id

/-- A call that does not create an instance keeps its key as long as it keeps the instance. -/
theorem map_lookup_apply_of_kept {c : InstanceCache} (hc : WellFormed c) {t : String}
    {h : InstanceHandle} {op : Op τ π} (hne : ¬ (AddSucceeds ts c t h op ∧ lookup c t h = none))
    (key : String) :
    (lookup (apply ts c op) t h).map InstanceInfo.keyRepresentation = some key ↔
      (lookup c t h).map InstanceInfo.keyRepresentation = some key ∧
        lookup (apply ts c op) t h ≠ none := by
  cases op with
  | add topic dynType data =>
      have hkept : (lookup (apply ts c (.add topic dynType data)) t h).map
          InstanceInfo.keyRepresentation = (lookup c t h).map InstanceInfo.keyRepresentation := by
        cases dynType with
        | none => rfl
        | some ty =>
            apply (addOrUpdateInstance_spec ts c topic ty data).key_kept
            intro hcreated
            obtain ⟨hr, rfl, hh, hnc⟩ := hcreated
            refine hne ⟨⟨rfl, hh, hr⟩, ?_⟩
            by_contra hsome
            exact hnc (hc.cached_iff.mpr hsome)
      rw [← hkept]
      cases lookup (apply ts c (.add topic dynType data)) t h <;> simp
  | onWriterChanged w t' active =>
      cases active with
      | true => cases hl : lookup c t h <;> simp [apply, hl]
      | false =>
          rw [apply, lookup_onWriterChanged]
          by_cases ht : t' = t
          · cases hl : lookup c t h with
            | none => simp [ht]
            | some info =>
                cases he : eraseWriter w info with
                | none => simp [ht, he]
                | some info' =>
                    obtain ⟨-, rfl⟩ := eraseWriter_eq_some.mp he
                    simp [ht, he]
          · cases hl : lookup c t h <;> simp [ht]
  | clear => simp [apply]

/-- The key that an instance is stored under is the one of the add that created it. -/
theorem map_lookup_iff_createdWith (ops : List (Op τ π)) (t : String) (h : InstanceHandle)
    (key : String) :
    (lookup (exec ts ops) t h).map InstanceInfo.keyRepresentation = some key ↔
      CreatedWith ts t h key ops := by
  induction ops using List.reverseRecOn with
  | nil => exact iff_of_false (by simp) not_since_nil
  | append_singleton ops op ih =>
      rw [createdWith_concat, ← ih, mem_stored_iff, mem_stored_iff, exec_concat, not_not, not_not]
      by_cases hnew : AddSucceeds ts (exec ts ops) t h op ∧ lookup (exec ts ops) t h = none
      · rw [map_lookup_apply_of_created hnew.1 hnew.2]
        simp [hnew]
      · rw [map_lookup_apply_of_kept (wellFormed_exec ops) hnew]
        tauto

/-- Sequentially the cache refines the relation of its registrations: an add is accepted
according to the relation and the key metadata seen, the registered writers are the
relation, and the active instances are the keys of its instances. -/
theorem cache_refines_registrations (ts : TypeSupport τ π δ) (ops : List (Op τ π)) :
    (∀ topic dynType data, (addOrUpdateInstance ts (exec ts ops) topic dynType data).2 = true ↔
      ∃ ty, dynType = some ty ∧
        (keyFieldNames ts ty ≠ [] ∨ KeysSeen ts topic.topicName ops) ∧
        (data.instanceHandle ∈ Stored ts topic.topicName ops ∨
          ((Stored ts topic.topicName ops).ncard < maxInstancesPerTopic ∧
            serializeKeyToJson ts ty data.payload ≠ ""))) ∧
    (∀ t h w, (∃ info, lookup (exec ts ops) t h = some info ∧ w ∈ info.activeWriters) ↔
      Registered ts t h w ops) ∧
    ∀ t key, key ∈ getActiveInstances (exec ts ops) t ↔
      ∃ h, (∃ w, Registered ts t h w ops) ∧ CreatedWith ts t h key ops := by
  refine ⟨?_, hasWriter_iff_registered ops, ?_⟩
  · intro topic dynType data
    cases dynType with
    | none => simp [addOrUpdateInstance]
    | some ty =>
        rw [(addOrUpdateInstance_spec ts (exec ts ops) topic ty data).result_iff, Accepts,
          KeysKnown, getKeyFields_ne_nil_iff_keysSeen, (wellFormed_exec ops).cached_iff, HasRoom,
          ← ncard_handles, ← stored_eq_handles, mem_stored_iff]
        simp only [Option.some.injEq, exists_eq_left']
        tauto
  · intro t key
    simp only [mem_getActiveInstances, ← map_lookup_iff_createdWith, ← hasWriter_iff_registered,
      ← (wellFormed_exec ops).lookup_ne_none_iff]
    constructor
    · intro hkey
      obtain ⟨h, info, hl, -, rfl⟩ := hkey
      exact ⟨h, by simp [hl], by simp [hl]⟩
    · intro hcreated
      obtain ⟨h, -, hkey⟩ := hcreated
      obtain ⟨info, hl, rfl⟩ := Option.map_eq_some_iff.mp hkey
      exact ⟨h, info, hl, (wellFormed_exec ops t h info hl).1, rfl⟩

end FastDdsSpy.InstanceCache
