import FastDdsSpy.Verification.InstanceCache.Threads
import FastDdsSpy.Verification.Instances

/-! # Registrations and references under interleaving

What the two sections of concurrent adds guarantee together: no registration is lost,
and a store goes into the live cache unless the cache was cleared in its gap. -/

namespace FastDdsSpy.CacheThreads

open InstanceCache PastTime

variable {τ π δ : Type*} {ts : TypeSupport τ π δ}

/-! ## Registrations -/

/-- The section registers the writer for the instance: it is the fast path of an add or
the store section of one. -/
def Registers (ts : TypeSupport τ π δ) (s : State) (t : String) (h : InstanceHandle) (w : Guid) :
    Step τ π → Prop
  | .check call topic dynType data => s.pending call = none ∧
      FastPath ts s.cache topic.topicName dynType data.instanceHandle ∧
      topic.topicName = t ∧ data.instanceHandle = h ∧ data.sourceGuid = w
  | .store call => ∃ p, s.pending call = some p ∧
      p.topicName = t ∧ p.instanceHandle = h ∧ p.writerGuid = w
  | _ => False

/-- The last registration of the writer for the instance came after its last removal. -/
def Registered (ts : TypeSupport τ π δ) (t : String) (h : InstanceHandle) (w : Guid)
    (es : List (Step τ π)) : Prop :=
  Since (fun pre e => Registers ts (exec ts pre) t h w e)
    (fun _ e => e = .onWriterChanged w t false) es

theorem registered_concat {t : String} {h : InstanceHandle} {w : Guid} {es : List (Step τ π)}
    {e : Step τ π} : Registered ts t h w (es ++ [e]) ↔
      Registers ts (exec ts es) t h w e ∨
        (Registered ts t h w es ∧ e ≠ .onWriterChanged w t false) :=
  since_concat

theorem wellFormed_step {s : State} (hs : WellFormed s.cache) (e : Step τ π) :
    WellFormed (step ts s e).cache := by
  cases e with
  | check call topic ty data =>
      by_cases hp : s.pending call = none
      · rw [cache_step_check hp]
        exact hs.checkSection _ _ _
      · rw [step_check_busy hp]
        exact hs
  | store call =>
      cases hp : s.pending call with
      | none =>
          rw [step_store_none hp]
          exact hs
      | some p =>
          rw [cache_step_store hp]
          exact hs.storeSection p
  | onWriterChanged w t active => exact hs.onWriterChanged w t active
  | clear => exact wellFormed_clear s.cache

theorem wellFormed_exec (es : List (Step τ π)) : WellFormed (exec ts es).cache :=
  run_induction (fun s : State => WellFormed s.cache) (fun _ e hs => wellFormed_step hs e)
    wellFormed_empty es

theorem hasWriter_iff_registered {es : List (Step τ π)} (hes : .clear ∉ es) (t : String)
    (h : InstanceHandle) (w : Guid) :
    HasWriter (exec ts es).cache t h w ↔ Registered ts t h w es := by
  induction es using List.reverseRecOn with
  | nil => exact iff_of_false (by simp [init, HasWriter]) not_since_nil
  | append_singleton es e ih =>
      have hpre : .clear ∉ es := fun hmem => hes (List.mem_append_left _ hmem)
      have hlast : e ≠ .clear := by
        rintro rfl
        simp at hes
      rw [registered_concat, ← ih hpre, exec_concat]
      cases e with
      | check call topic ty data =>
          by_cases hp : (exec ts es).pending call = none
          · rw [cache_step_check hp, hasWriter_checkSection]
            simp [Registers, hp, or_comm]
          · rw [step_check_busy hp]
            simp [Registers, hp]
      | store call =>
          cases hp : (exec ts es).pending call with
          | none =>
              rw [step_store_none hp]
              simp [Registers, hp]
          | some p =>
              -- without `clear` the captured map is the one in the cache
              have hlive : IsLive (exec ts es).cache p :=
                (isLive_iff_not_clearedInGap hp).mpr (not_clearedInGap_of_not_mem hpre call)
              rw [cache_step_store hp, hasWriter_storeSection hlive]
              simp [Registers, hp, or_comm]
      | onWriterChanged w' t' active =>
          cases active with
          | true => simp [Registers, step]
          | false =>
              have hstep : (step ts (exec ts es) (.onWriterChanged w' t' false)).cache =
                  onWriterChanged (exec ts es).cache w' t' false := rfl
              rw [hstep, hasWriter_onWriterChanged]
              simp [Registers, and_comm]
      | clear => exact absurd rfl hlast

/-- In every state that adds and removals can reach, each stored instance has a key and a
writer, and a writer is registered exactly when its last registration came after its
last removal. -/
theorem no_registration_lost (ts : TypeSupport τ π δ) (es : List (Step τ π)) (hes : .clear ∉ es) :
    (∀ t h info, lookup (exec ts es).cache t h = some info →
      info.activeWriters ≠ ∅ ∧ info.keyRepresentation ≠ "") ∧
    ∀ t h w, (∃ info, lookup (exec ts es).cache t h = some info ∧ w ∈ info.activeWriters) ↔
      Registered ts t h w es :=
  ⟨wellFormed_exec es, hasWriter_iff_registered hes⟩

/-- Two adds of one instance overlap, and the writer of the first one leaves before the second
one stores. -/
def overlappingAdds : List (Step Unit Unit) :=
  [.check 0 keyedTopic () (keyedSample ⟨1, 2⟩ 7), .check 1 keyedTopic () (keyedSample ⟨2, 2⟩ 7),
    .store 0, .onWriterChanged ⟨1, 2⟩ "topic" false, .store 1]

theorem no_registration_lost_overlapping :
    HasWriter (exec keyedType overlappingAdds).cache "topic" 7 ⟨2, 2⟩ ∧
      ¬ HasWriter (exec keyedType overlappingAdds).cache "topic" 7 ⟨1, 2⟩ := by
  have hwriters := (no_registration_lost keyedType overlappingAdds (by simp [overlappingAdds])).2
  have hstore : (exec keyedType (overlappingAdds.take 4)).pending 1 =
      some ⟨"topic", 0, 7, ⟨2, 2⟩, _, keyedType_serializes⟩ := rfl
  constructor
  · refine (hwriters "topic" 7 ⟨2, 2⟩).mpr ?_
    exact ⟨overlappingAdds.take 4, .store 1, [], rfl, ⟨_, hstore, rfl, rfl, rfl⟩, by simp⟩
  · refine mt (hwriters "topic" 7 ⟨1, 2⟩).mp ?_
    have hconcat : overlappingAdds =
        overlappingAdds.take 3 ++ [.onWriterChanged ⟨1, 2⟩ "topic" false] ++ [.store 1] := rfl
    rw [hconcat, registered_concat, registered_concat]
    rintro (⟨p, hp, -, -, hwriter⟩ | ⟨hremoval | ⟨-, hremoval⟩, -⟩)
    · obtain rfl := Option.some.inj (hstore.symm.trans hp)
      cases hwriter
    · exact hremoval
    · exact hremoval rfl

/-! ## References -/

/-- If the event is a store section, the map it captured is the one held for its topic. -/
def StoreIsLive (ts : TypeSupport τ π δ) (pre : List (Step τ π)) : Step τ π → Prop
  | .store call => ∀ p, (exec ts pre).pending call = some p → IsLive (exec ts pre).cache p
  | _ => True

/-- If the event is a store section, no `clear` ran since the check section of its add. -/
def NoClearInGap (ts : TypeSupport τ π δ) (pre : List (Step τ π)) : Step τ π → Prop
  | .store call => ¬ ClearedInGap ts call pre
  | _ => True

/-- The store sections of an execution all write into the live cache if and only if the
cache is never cleared between the two sections of an add. -/
theorem storeIsLive_iff_noClearInGap (es : List (Step τ π)) :
    EachStep (StoreIsLive ts) es ↔ EachStep (NoClearInGap ts) es := by
  refine forall₂_congr fun pre e => imp_congr_right fun _ => ?_
  cases e with
  | store call =>
      cases hp : (exec ts pre).pending call with
      | none =>
          have hinv : ¬ ClearedInGap ts call pre := by
            simpa only [hp] using referenceInv ts pre call
          exact iff_of_true (by simp [StoreIsLive, hp]) hinv
      | some p =>
          simpa [StoreIsLive, NoClearInGap, hp] using isLive_iff_not_clearedInGap hp
  | check | onWriterChanged | clear => exact Iff.rfl

/-- One add, one `clear` in its gap: the store goes through a dangling reference. -/
theorem not_storeIsLive_clear :
    ¬ EachStep (StoreIsLive keyedType)
      [.check 0 keyedTopic () (keyedSample ⟨1, 2⟩ 7), .clear, .store 0] := by
  intro h
  have hlive := h [.check 0 keyedTopic () (keyedSample ⟨1, 2⟩ 7), .clear] (.store 0)
    (List.prefix_refl _) ⟨"topic", 0, 7, ⟨1, 2⟩, _, keyedType_serializes⟩ rfl
  exact absurd hlive (by decide)

end FastDdsSpy.CacheThreads
