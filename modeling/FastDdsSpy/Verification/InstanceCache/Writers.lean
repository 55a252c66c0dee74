import FastDdsSpy.Verification.InstanceCache.Equations

/-! # The writers registered in the instance cache

The cache is read as a relation between topics, handles and writers. Both critical
sections of an add can only put a writer in; `on_writer_changed` takes one out of a
whole topic. -/

namespace FastDdsSpy.InstanceCache

open Std

variable {τ π δ : Type*} {ts : TypeSupport τ π δ}

/-- The writer is in `active_writers` of the instance. -/
def HasWriter (c : InstanceCache) (t : String) (h : InstanceHandle) (w : Guid) : Prop :=
  ∃ info, lookup c t h = some info ∧ w ∈ info.activeWriters

/-- No entry without a key or without a writer is ever kept. -/
def WellFormed (c : InstanceCache) : Prop :=
  ∀ t h info, lookup c t h = some info →
    info.activeWriters ≠ ∅ ∧ info.keyRepresentation ≠ ""

theorem WellFormed.cached_iff {c : InstanceCache} (hc : WellFormed c) {t : String}
    {h : InstanceHandle} : Cached c t h ↔ lookup c t h ≠ none := by
  constructor
  · intro hcached
    obtain ⟨info, hl, -⟩ := hcached
    simp [hl]
  · intro hne
    obtain ⟨info, hl⟩ := Option.ne_none_iff_exists'.mp hne
    exact ⟨info, hl, (hc t h info hl).2⟩

/-- In a well-formed cache an instance is stored exactly when some writer is registered. -/
theorem WellFormed.lookup_ne_none_iff {c : InstanceCache} (hc : WellFormed c) {t : String}
    {h : InstanceHandle} : lookup c t h ≠ none ↔ ∃ w, HasWriter c t h w := by
  constructor
  · intro hne
    obtain ⟨info, hl⟩ := Option.ne_none_iff_exists'.mp hne
    obtain ⟨w, hw⟩ : ∃ w, w ∈ info.activeWriters := by
      by_contra hnone
      push Not at hnone
      exact (hc t h info hl).1 (ExtTreeSet.ext_mem (by simpa using hnone))
    exact ⟨w, info, hl, hw⟩
  · intro hwriter
    obtain ⟨w, info, hl, -⟩ := hwriter
    simp [hl]

/-! ## Entries -/

theorem mem_insertWriter {info : InstanceInfo} {w w' : Guid} :
    w' ∈ (info.insertWriter w).activeWriters ↔ w = w' ∨ w' ∈ info.activeWriters := by
  simp [InstanceInfo.insertWriter]

theorem insertWriter_ne_empty (info : InstanceInfo) (w : Guid) :
    (info.insertWriter w).activeWriters ≠ ∅ := by
  intro h
  have hw : w ∈ (info.insertWriter w).activeWriters := mem_insertWriter.mpr (.inl rfl)
  simp [h] at hw

@[simp] theorem keyRepresentation_storedInfo (p : PendingStore) (found : Option InstanceInfo) :
    (storedInfo p found).keyRepresentation = p.keyJson := rfl

theorem mem_storedInfo {p : PendingStore} {found : Option InstanceInfo} {w : Guid} :
    w ∈ (storedInfo p found).activeWriters ↔
      p.writerGuid = w ∨ ∃ info, found = some info ∧ w ∈ info.activeWriters := by
  cases found <;> simp [storedInfo, mem_insertWriter]

theorem eraseWriter_eq_some {w : Guid} {info info' : InstanceInfo} :
    eraseWriter w info = some info' ↔
      info.activeWriters.erase w ≠ ∅ ∧
        info' = { info with activeWriters := info.activeWriters.erase w } := by
  by_cases he : info.activeWriters.erase w = ∅
  · simp [eraseWriter, he]
  · have hne : (info.activeWriters.erase w).isEmpty = false :=
      ExtTreeSet.isEmpty_eq_false_iff.mpr he
    simp only [eraseWriter, hne, Bool.false_eq_true, if_false, ne_eq, he, not_false_eq_true,
      true_and, Option.some.injEq]
    exact eq_comm

/-! ## The check section -/

theorem hasWriter_checkSection (ts : TypeSupport τ π δ) (c : InstanceCache) (t : String) (ty : τ)
    (data : RtpsPayloadData π) (t' : String) (h : InstanceHandle) (w : Guid) :
    HasWriter (checkSection ts c t ty data).1 t' h w ↔ HasWriter c t' h w ∨
      (FastPath ts c t ty data.instanceHandle ∧
        t = t' ∧ data.instanceHandle = h ∧ data.sourceGuid = w) := by
  have hspec := checkSection_spec ts c t ty data
  by_cases hfast : FastPath ts c t ty data.instanceHandle
  · simp only [HasWriter, hspec.lookup_fast hfast, hfast, true_and]
    by_cases he : t = t' ∧ data.instanceHandle = h
    · obtain ⟨rfl, rfl⟩ := he
      obtain ⟨info, hl, -⟩ := hfast.2
      simp [hl, mem_insertWriter, or_comm]
    · rw [if_neg he]
      exact (or_iff_left fun hnew => he ⟨hnew.1, hnew.2.1⟩).symm
  · simp [HasWriter, hspec.lookup_slow hfast, hfast]

theorem WellFormed.checkSection {c : InstanceCache} (hc : WellFormed c) (t : String) (ty : τ)
    (data : RtpsPayloadData π) : WellFormed (checkSection ts c t ty data).1 := by
  have hspec := checkSection_spec ts c t ty data
  intro t' h info hl
  by_cases hfast : FastPath ts c t ty data.instanceHandle
  · rw [hspec.lookup_fast hfast] at hl
    split at hl
    · obtain ⟨old, hold, rfl⟩ := Option.map_eq_some_iff.mp hl
      rename_i he
      exact ⟨insertWriter_ne_empty _ _, (hc t h old hold).2⟩
    · exact hc t' h info hl
  · rw [hspec.lookup_slow hfast] at hl
    exact hc t' h info hl

/-! ## The store section -/

theorem hasWriter_storeSection {c : InstanceCache} {p : PendingStore} (hp : IsLive c p)
    (t : String) (h : InstanceHandle) (w : Guid) :
    HasWriter (storeSection c p) t h w ↔ HasWriter c t h w ∨
      (p.topicName = t ∧ p.instanceHandle = h ∧ p.writerGuid = w) := by
  simp only [HasWriter, lookup_storeSection hp]
  by_cases he : p.topicName = t ∧ p.instanceHandle = h
  · obtain ⟨rfl, rfl⟩ := he
    simp [mem_storedInfo, or_comm]
  · rw [if_neg he]
    exact (or_iff_left fun hnew => he ⟨hnew.1, hnew.2.1⟩).symm

theorem WellFormed.storeSection {c : InstanceCache} (hc : WellFormed c) (p : PendingStore) :
    WellFormed (storeSection c p) := by
  by_cases hp : IsLive c p
  · intro t h info hl
    rw [lookup_storeSection hp] at hl
    split at hl
    · obtain rfl := Option.some.inj hl
      exact ⟨insertWriter_ne_empty _ _, p.keyJson_ne⟩
    · exact hc t h info hl
  · rw [storeSection_of_not_live hp]
    exact hc

/-! ## Removal of a writer and `clear` -/

theorem hasWriter_onWriterChanged (c : InstanceCache) (w : Guid) (t t' : String)
    (h : InstanceHandle) (w' : Guid) :
    HasWriter (onWriterChanged c w t false) t' h w' ↔
      HasWriter c t' h w' ∧ ¬ (t = t' ∧ w = w') := by
  simp only [HasWriter, lookup_onWriterChanged]
  by_cases ht : t = t'
  · subst t'
    simp only [ite_true, Option.bind_eq_some_iff, eraseWriter_eq_some, true_and]
    constructor
    · intro hwriter
      obtain ⟨info', ⟨info, hl, -, rfl⟩, hw⟩ := hwriter
      have hw' : w ≠ w' ∧ w' ∈ info.activeWriters := by
        simpa [ExtTreeSet.mem_erase] using hw
      exact ⟨⟨info, hl, hw'.2⟩, hw'.1⟩
    · intro hwriter
      obtain ⟨⟨info, hl, hw⟩, hne⟩ := hwriter
      have hw' : w' ∈ info.activeWriters.erase w := by
        simpa [ExtTreeSet.mem_erase, hne] using hw
      refine ⟨_, ⟨info, hl, ?_, rfl⟩, hw'⟩
      intro hempty
      simp [hempty] at hw'
  · simp [ht]

theorem WellFormed.onWriterChanged {c : InstanceCache} (hc : WellFormed c) (w : Guid)
    (t : String) (active : Bool) : WellFormed (onWriterChanged c w t active) := by
  cases active with
  | true => exact hc
  | false =>
      intro t' h info hl
      rw [lookup_onWriterChanged] at hl
      split at hl
      · obtain ⟨old, hold, he⟩ := Option.bind_eq_some_iff.mp hl
        obtain ⟨hne, rfl⟩ := eraseWriter_eq_some.mp he
        exact ⟨hne, (hc t' h old hold).2⟩
      · exact hc t' h info hl

@[simp] theorem not_hasWriter_clear (c : InstanceCache) (t : String) (h : InstanceHandle)
    (w : Guid) : ¬ HasWriter c.clear t h w := by
  simp [HasWriter]

theorem wellFormed_clear (c : InstanceCache) : WellFormed c.clear := by
  intro t h info hl
  simp at hl

@[simp] theorem lookup_empty (t : String) (h : InstanceHandle) : lookup empty t h = none := by
  simp [lookup, empty]

@[simp] theorem nodeOf_empty (t : String) : nodeOf empty t = none := by
  simp [nodeOf, empty]

theorem wellFormed_empty : WellFormed empty := by
  intro t h info hl
  simp at hl

end FastDdsSpy.InstanceCache
