import FastDdsSpy.Model.CacheThreads
import FastDdsSpy.Verification.InstanceCache.Writers

/-! # Interleaved critical sections

An add keeps a reference to its per-topic map between its two sections. The reference
stays good under every section except `clear`. -/

namespace FastDdsSpy.CacheThreads

open InstanceCache PastTime

variable {τ π δ : Type*} {ts : TypeSupport τ π δ}

/-! ## Steps -/

@[simp] theorem exec_nil : exec ts ([] : List (Step τ π)) = init := rfl

@[simp] theorem exec_concat (es : List (Step τ π)) (e : Step τ π) :
    exec ts (es ++ [e]) = step ts (exec ts es) e := by
  simp [exec]

section Step

variable {s : State} {call : ℕ} {topic : DdsTopic} {ty : τ} {data : RtpsPayloadData π}

theorem cache_step_check (h : s.pending call = none) :
    (step ts s (.check call topic ty data)).cache =
      (checkSection ts s.cache topic.topicName ty data).1 := by
  simp [step, h]

theorem pending_step_check (h : s.pending call = none) (call' : ℕ) :
    (step ts s (.check call topic ty data)).pending call' =
      if call' = call then afterCheck ts topic.topicName ty data
        (checkSection ts s.cache topic.topicName ty data).2
      else s.pending call' := by
  simp [step, h, Function.update_apply]

theorem step_check_busy (h : s.pending call ≠ none) :
    step ts s (.check call topic ty data) = s := by
  simp [step, h]

theorem cache_step_store {p : PendingStore} (h : s.pending call = some p) :
    (step ts s (.store call : Step τ π)).cache = storeSection s.cache p := by
  simp [step, h]

theorem pending_step_store (call' : ℕ) :
    (step ts s (.store call : Step τ π)).pending call' =
      if call' = call then none else s.pending call' := by
  cases h : s.pending call with
  | none =>
      by_cases hc : call' = call
      · subst hc
        simp [step, h]
      · simp [step, h, hc]
  | some p => simp [step, h, Function.update_apply]

theorem step_store_none (h : s.pending call = none) :
    step ts s (.store call : Step τ π) = s := by
  simp [step, h]

/-- A pending store comes from the slow path and carries the sample's data. -/
theorem afterCheck_eq_some {t : String} {r : CheckResult} {p : PendingStore}
    (h : afterCheck ts t ty data r = some p) :
    r = .slowPath p.node ∧ p.topicName = t ∧ p.instanceHandle = data.instanceHandle ∧
      p.writerGuid = data.sourceGuid := by
  cases r with
  | returned result => simp [afterCheck] at h
  | slowPath node =>
      simp only [afterCheck, pendingStore] at h
      split at h
      · obtain rfl := Option.some.inj h
        simp
      · simp at h

end Step

/-! ## Identities of the per-topic maps -/

/-- No per-topic map, held or captured, has a number that is still to be given out. -/
structure NodesNumbered (s : State) : Prop where
  held : NodesBelow s.cache
  captured : ∀ call p, s.pending call = some p → p.node < s.cache.nextNode

theorem NodesNumbered.step {s : State} (hs : NodesNumbered s) (e : Step τ π) :
    NodesNumbered (step ts s e) := by
  cases e with
  | check call topic ty data =>
      by_cases hp : s.pending call = none
      · have hspec := checkSection_spec ts s.cache topic.topicName ty data
        refine ⟨?_, ?_⟩
        · rw [cache_step_check hp]
          exact hspec.nodesBelow hs.held
        · intro call' p h
          rw [pending_step_check hp] at h
          rw [cache_step_check hp]
          split at h
          · obtain ⟨hr, -⟩ := afterCheck_eq_some h
            exact hspec.nodesBelow hs.held _ _ (hspec.node_eq _ hr)
          · exact (hs.captured call' p h).trans_le hspec.nextNode_le
      · rw [step_check_busy hp]
        exact hs
  | store call =>
      cases hp : s.pending call with
      | none =>
          rw [step_store_none hp]
          exact hs
      | some p =>
          refine ⟨?_, ?_⟩
          · rw [cache_step_store hp]
            intro t n hn
            simpa using hs.held t n (by simpa using hn)
          · intro call' p' h
            rw [pending_step_store] at h
            rw [cache_step_store hp, nextNode_storeSection]
            split at h
            · simp at h
            · exact hs.captured call' p' h
  | onWriterChanged w t active =>
      refine ⟨?_, ?_⟩
      · intro t' n hn
        simpa [CacheThreads.step] using hs.held t' n (by simpa [CacheThreads.step] using hn)
      · intro call p h
        simpa [CacheThreads.step] using hs.captured call p h
  | clear =>
      refine ⟨?_, hs.captured⟩
      intro t n hn
      simp [CacheThreads.step] at hn

theorem nodesNumbered_exec (ts : TypeSupport τ π δ) (es : List (Step τ π)) :
    NodesNumbered (exec ts es) := by
  apply run_induction NodesNumbered (fun s e hs => hs.step e)
  refine ⟨?_, ?_⟩
  · intro t n hn
    simp [init] at hn
  · intro call p h
    simp [init] at h

/-- A check section neither destroys a per-topic map nor reuses a number. -/
theorem isLive_checkSection {c : InstanceCache} {p : PendingStore} (hp : p.node < c.nextNode)
    (t : String) (ty : τ) (data : RtpsPayloadData π) :
    IsLive (checkSection ts c t ty data).1 p ↔ IsLive c p := by
  have hspec := checkSection_spec ts c t ty data
  rw [isLive_iff, isLive_iff]
  cases hn : nodeOf c p.topicName with
  | none =>
      rcases hspec.nodeOf_of_none _ hn with h | h
      · simp [h]
      · have hne : c.nextNode ≠ p.node := by omega
        simp [h, hne]
  | some n => rw [hspec.nodeOf_of_some _ n hn]

@[simp] theorem isLive_storeSection (c : InstanceCache) (p p' : PendingStore) :
    IsLive (storeSection c p') p ↔ IsLive c p := by
  simp [isLive_iff]

@[simp] theorem isLive_onWriterChanged (c : InstanceCache) (w : Guid) (t : String)
    (active : Bool) (p : PendingStore) :
    IsLive (onWriterChanged c w t active) p ↔ IsLive c p := by
  simp [isLive_iff]

@[simp] theorem not_isLive_clear (c : InstanceCache) (p : PendingStore) :
    ¬ IsLive c.clear p := by
  simp [isLive_iff]

/-! ## When a captured reference is still good -/

/-- The cache was cleared while the add was between its two sections. -/
def ClearedInGap (ts : TypeSupport τ π δ) (call : ℕ) (es : List (Step τ π)) : Prop :=
  Since (fun pre e => e = .clear ∧ (exec ts pre).pending call ≠ none)
    (fun _ e => e = .store call) es

theorem clearedInGap_concat {call : ℕ} {es : List (Step τ π)} {e : Step τ π} :
    ClearedInGap ts call (es ++ [e]) ↔
      (e = .clear ∧ (exec ts es).pending call ≠ none) ∨
        (ClearedInGap ts call es ∧ e ≠ .store call) :=
  since_concat

/-- A pending store has a live reference exactly when no `clear` fell into its gap; an add
that is not in its gap has no such history. -/
def ReferenceInv (ts : TypeSupport τ π δ) (es : List (Step τ π)) : Prop :=
  ∀ call, match (exec ts es).pending call with
    | none => ¬ ClearedInGap ts call es
    | some p => IsLive (exec ts es).cache p ↔ ¬ ClearedInGap ts call es

/-- The check section of an add captures the map that it leaves in the cache. -/
theorem isLive_afterCheck {c : InstanceCache} {t : String} {ty : τ} {data : RtpsPayloadData π}
    {p : PendingStore} (h : afterCheck ts t ty data (checkSection ts c t ty data).2 = some p) :
    IsLive (checkSection ts c t ty data).1 p := by
  obtain ⟨hr, ht, -⟩ := afterCheck_eq_some h
  have hnode := (checkSection_spec ts c t ty data).node_eq _ hr
  rwa [isLive_iff, ht]

theorem ReferenceInv.check {es : List (Step τ π)} (hs : ReferenceInv ts es) (call' : ℕ)
    (topic : DdsTopic) (ty : τ) (data : RtpsPayloadData π) :
    ReferenceInv ts (es ++ [.check call' topic ty data]) := by
  intro call
  have hcall := hs call
  rw [exec_concat]
  simp only [clearedInGap_concat, reduceCtorEq, false_and, false_or, ne_eq,
    not_false_eq_true, and_true]
  by_cases hp' : (exec ts es).pending call' = none
  · rw [pending_step_check hp', cache_step_check hp']
    by_cases hc : call = call'
    · subst hc
      rw [hp'] at hcall
      rw [if_pos rfl]
      cases ha : afterCheck ts topic.topicName ty data
          (checkSection ts (exec ts es).cache topic.topicName ty data).2 with
      | none => exact hcall
      | some p => exact iff_of_true (isLive_afterCheck ha) hcall
    · rw [if_neg hc]
      cases hp : (exec ts es).pending call with
      | none => simpa only [hp] using hcall
      | some p =>
          simp only [hp] at hcall ⊢
          rw [isLive_checkSection ((nodesNumbered_exec ts es).captured call p hp)]
          exact hcall
  · rw [step_check_busy hp']
    exact hcall

theorem ReferenceInv.store {es : List (Step τ π)} (hs : ReferenceInv ts es) (call' : ℕ) :
    ReferenceInv ts (es ++ [.store call']) := by
  intro call
  have hcall := hs call
  rw [exec_concat]
  simp only [clearedInGap_concat, reduceCtorEq, false_and, false_or]
  rw [pending_step_store]
  by_cases hc : call = call'
  · simp [hc]
  · rw [if_neg hc]
    cases hp' : (exec ts es).pending call' with
    | none =>
        rw [step_store_none hp']
        simpa [Ne.symm hc] using hcall
    | some p' =>
        rw [cache_step_store hp']
        simpa [Ne.symm hc] using hcall

theorem ReferenceInv.clear {es : List (Step τ π)} (hs : ReferenceInv ts es) :
    ReferenceInv ts (es ++ [.clear]) := by
  intro call
  have hcall := hs call
  rw [exec_concat]
  cases hp : (exec ts es).pending call with
  | none =>
      rw [hp] at hcall
      simpa [clearedInGap_concat, CacheThreads.step, hp] using hcall
  | some p => simp [clearedInGap_concat, CacheThreads.step, hp]

theorem referenceInv (ts : TypeSupport τ π δ) (es : List (Step τ π)) : ReferenceInv ts es := by
  induction es using List.reverseRecOn with
  | nil => exact fun call => not_since_nil
  | append_singleton es e ih =>
      cases e with
      | check call topic ty data => exact ih.check call topic ty data
      | store call => exact ih.store call
      | onWriterChanged w t active =>
          intro call
          simpa [clearedInGap_concat, CacheThreads.step] using ih call
      | clear => exact ih.clear

theorem isLive_iff_not_clearedInGap {es : List (Step τ π)} {call : ℕ} {p : PendingStore}
    (hp : (exec ts es).pending call = some p) :
    IsLive (exec ts es).cache p ↔ ¬ ClearedInGap ts call es := by
  have h := referenceInv ts es call
  simpa only [hp] using h

theorem not_clearedInGap_of_not_mem {es : List (Step τ π)} (h : .clear ∉ es) (call : ℕ) :
    ¬ ClearedInGap ts call es := by
  intro hcleared
  obtain ⟨pre, e, post, rfl, ⟨rfl, -⟩, -⟩ := hcleared
  simp at h

end FastDdsSpy.CacheThreads
