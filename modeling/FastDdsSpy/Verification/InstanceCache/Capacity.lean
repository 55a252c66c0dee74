import FastDdsSpy.Verification.InstanceCache.Interleaving

/-! # The instance limit under interleaving

The limit is tested in the check section of an add and the instance is inserted in its store
section. What decides about the bound is what the other threads do between the two: the
instances that they insert, and those that they remove, against the room that was found. -/

namespace FastDdsSpy.CacheThreads

open InstanceCache PastTime

variable {τ π δ : Type*} {ts : TypeSupport τ π δ}

/-- No topic holds more than `MAX_INSTANCES_PER_TOPIC` instances. -/
def Bounded (c : InstanceCache) : Prop := ∀ t, handleCount c t ≤ maxInstancesPerTopic

/-! ## What a section does to the number of instances -/

/-- The new handles that a section inserts for a topic: one at most, by a store section that
writes into the cache. -/
def inserted (ts : TypeSupport τ π δ) (t : String) (pre : List (Step τ π)) : Step τ π → ℕ
  | .store call =>
      match (exec ts pre).pending call with
      | some p =>
          if IsLive (exec ts pre).cache p ∧ p.topicName = t ∧
              (lookup (exec ts pre).cache t p.instanceHandle).isNone then 1
          else 0
      | none => 0
  | _ => 0

/-- The handles that a section removes from a topic: those that a writer leaves without any. -/
def removed (ts : TypeSupport τ π δ) (t : String) (pre : List (Step τ π)) : Step τ π → ℕ
  | .onWriterChanged w t' false => if t' = t then soleCount (exec ts pre).cache w t else 0
  | _ => 0

/-- Of all sections only `clear` changes the number in another way. -/
theorem handleCount_concat (ts : TypeSupport τ π δ) (pre : List (Step τ π)) {e : Step τ π}
    (he : e ≠ .clear) (t : String) :
    handleCount (exec ts (pre ++ [e])).cache t + removed ts t pre e =
      handleCount (exec ts pre).cache t + inserted ts t pre e := by
  rw [exec_concat]
  cases e with
  | check call topic ty data =>
      by_cases hp : (exec ts pre).pending call = none
      · rw [cache_step_check hp]
        exact (checkSection_spec ts _ topic.topicName ty data).handleCount_eq t
      · rw [step_check_busy hp]
        rfl
  | store call =>
      cases hp : (exec ts pre).pending call with
      | none => simp [step_store_none hp, removed, inserted, hp]
      | some p =>
          rw [cache_step_store hp]
          by_cases hlive : IsLive (exec ts pre).cache p
          · rw [handleCount_storeSection hlive]
            simp only [removed, inserted, hp, hlive, true_and, Option.isNone_iff_eq_none]
            split <;> simp
          · simp [storeSection_of_not_live hlive, removed, inserted, hp, hlive]
  | onWriterChanged w t' active =>
      cases active with
      | true => simp [step, removed, inserted]
      | false => exact handleCount_onWriterChanged (exec ts pre).cache w t' t
  | clear => exact absurd rfl he

/-! ## The gap of an add -/

/-- An add whose check section is `check` has been pending in all of `gap`. -/
structure InGap (ts : TypeSupport τ π δ) (call : ℕ) (p : PendingStore)
    (before : List (Step τ π)) (check : Step τ π) (gap : List (Step τ π)) : Prop where
  idle : (exec ts before).pending call = none
  checked : (exec ts (before ++ [check])).pending call = some p
  not_stored : .store call ∉ gap

/-- An add stays pending until its store section. -/
theorem pending_concat {pre : List (Step τ π)} {call : ℕ} {p : PendingStore}
    (hp : (exec ts pre).pending call = some p) {e : Step τ π} (he : e ≠ .store call) :
    (exec ts (pre ++ [e])).pending call = some p := by
  rw [exec_concat]
  cases e with
  | check call' topic ty data =>
      by_cases hp' : (exec ts pre).pending call' = none
      · have hne : call ≠ call' := by
          rintro rfl
          simp [hp] at hp'
        rw [pending_step_check hp', if_neg hne, hp]
      · rw [step_check_busy hp', hp]
  | store call' =>
      have hne : call ≠ call' := by
        rintro rfl
        exact he rfl
      rw [pending_step_store, if_neg hne, hp]
  | onWriterChanged w t active => exact hp
  | clear => exact hp

theorem pending_of_store_concat (pre : List (Step τ π)) (call : ℕ) :
    (exec ts (pre ++ [.store call])).pending call = none := by
  rw [exec_concat, pending_step_store, if_pos rfl]

/-- Every pending add has had its check section. -/
theorem exists_inGap {pre : List (Step τ π)} {call : ℕ} {p : PendingStore}
    (hp : (exec ts pre).pending call = some p) :
    ∃ before check gap, pre = before ++ check :: gap ∧ InGap ts call p before check gap := by
  induction pre using List.reverseRecOn with
  | nil => simp [init] at hp
  | append_singleton pre e ih =>
      cases hpre : (exec ts pre).pending call with
      | none => exact ⟨pre, e, [], rfl, hpre, hp, by simp⟩
      | some p' =>
          have he : e ≠ .store call := by
            rintro rfl
            rw [pending_of_store_concat] at hp
            cases hp
          have hkept := pending_concat hpre he
          obtain rfl : p' = p := Option.some.inj (hkept.symm.trans hp)
          obtain ⟨before, check, gap, rfl, hgap⟩ := ih hpre
          refine ⟨before, check, gap ++ [e], by simp, hgap.idle, hgap.checked, ?_⟩
          simp [hgap.not_stored, he.symm]

namespace InGap

variable {call : ℕ} {p : PendingStore} {before gap : List (Step τ π)} {check : Step τ π}

theorem prefix_gap {e : Step τ π} (h : InGap ts call p before check (gap ++ [e])) :
    InGap ts call p before check gap :=
  ⟨h.idle, h.checked, fun hmem => h.not_stored (List.mem_append_left _ hmem)⟩

theorem pending_eq (h : InGap ts call p before check gap) :
    (exec ts (before ++ check :: gap)).pending call = some p := by
  induction gap using List.reverseRecOn with
  | nil => exact h.checked
  | append_singleton gap e ih =>
      have he : e ≠ .store call := by
        rintro rfl
        exact h.not_stored (by simp)
      have hkept := pending_concat (ih h.prefix_gap) he
      rwa [List.append_assoc] at hkept

/-- The section that made the add pending is its check section, on the slow path. -/
theorem check_eq (h : InGap ts call p before check gap) : ∃ topic ty data,
    check = .check call topic ty data ∧ afterCheck ts topic.topicName ty data
      (checkSection ts (exec ts before).cache topic.topicName ty data).2 = some p := by
  have hchecked := h.checked
  rw [exec_concat] at hchecked
  cases check with
  | check call' topic ty data =>
      by_cases hp' : (exec ts before).pending call' = none
      · rw [pending_step_check hp'] at hchecked
        split at hchecked
        · next hcall =>
            subst hcall
            exact ⟨topic, ty, data, rfl, hchecked⟩
        · simp [h.idle] at hchecked
      · simp [step_check_busy hp', h.idle] at hchecked
  | store call' =>
      rw [pending_step_store] at hchecked
      simp [h.idle] at hchecked
  | onWriterChanged | clear => simp [step, h.idle] at hchecked

/-- The check section of a pending add found room for one more instance. -/
theorem room_found (h : InGap ts call p before check gap) :
    handleCount (exec ts before).cache p.topicName < maxInstancesPerTopic := by
  obtain ⟨topic, ty, data, -, hafter⟩ := h.check_eq
  obtain ⟨hslow, htopic, -⟩ := afterCheck_eq_some hafter
  have hspec := checkSection_spec ts (exec ts before).cache topic.topicName ty data
  obtain ⟨-, hcached, hroom⟩ := hspec.slowPath_iff.mp ⟨_, hslow⟩
  rw [(wellFormed_exec before).cached_iff, not_not] at hcached
  rw [htopic]
  exact hroom hcached

/-- Without `clear` the add still writes into the cache. -/
theorem isLive_iff (h : InGap ts call p before check gap) :
    IsLive (exec ts (before ++ check :: gap)).cache p ↔ .clear ∉ gap := by
  induction gap using List.reverseRecOn with
  | nil =>
      obtain ⟨topic, ty, data, rfl, hafter⟩ := h.check_eq
      rw [exec_concat, cache_step_check h.idle]
      exact iff_of_true (isLive_afterCheck hafter) (by simp)
  | append_singleton gap e ih =>
      have hpending := h.prefix_gap.pending_eq
      rw [← List.cons_append, ← List.append_assoc, exec_concat, List.mem_append, not_or,
        ← ih h.prefix_gap, List.mem_singleton]
      cases e with
      | check call' topic ty data =>
          by_cases hp' : (exec ts (before ++ check :: gap)).pending call' = none
          · have hnumber := (nodesNumbered_exec ts _).captured call p hpending
            simp [cache_step_check hp', isLive_checkSection hnumber]
          · simp [step_check_busy hp']
      | store call' =>
          cases hp' : (exec ts (before ++ check :: gap)).pending call' with
          | none => simp [step_store_none hp']
          | some p' => simp [cache_step_store hp']
      | onWriterChanged w t active => simp [step]
      | clear => simp [step]

theorem handleCount_add (h : InGap ts call p before check gap) (hclear : .clear ∉ gap)
    (t : String) :
    handleCount (exec ts (before ++ check :: gap)).cache t +
        totalFrom (removed ts t) (before ++ [check]) gap =
      handleCount (exec ts before).cache t +
        totalFrom (inserted ts t) (before ++ [check]) gap := by
  induction gap using List.reverseRecOn with
  | nil =>
      obtain ⟨topic, ty, data, rfl, -⟩ := h.check_eq
      exact handleCount_concat ts before (by simp) t
  | append_singleton gap e ih =>
      obtain ⟨hgap, he⟩ : .clear ∉ gap ∧ e ≠ .clear := by
        simpa [eq_comm] using hclear
      have hcount := ih h.prefix_gap hgap
      have hlast := handleCount_concat ts (before ++ check :: gap) he t
      have hpre : before ++ [check] ++ gap = before ++ check :: gap := by simp
      rw [totalFrom_concat, totalFrom_concat, hpre, ← List.cons_append, ← List.append_assoc]
      omega

end InGap

/-! ## The bound -/

/-- Between the check section of an add and this, its store section, the other adds do not use
up the room that the check section found: they insert no more new handles for the topic than
writers that leave take away, or fewer than these and the room found together. An add whose
cache was cleared in between, or whose handle is stored by now, needs no room. -/
def RoomLeft (ts : TypeSupport τ π δ) (pre : List (Step τ π)) : Step τ π → Prop
  | .store call => ∀ p before check gap, pre = before ++ check :: gap →
      InGap ts call p before check gap → .clear ∉ gap →
      lookup (exec ts pre).cache p.topicName p.instanceHandle = none →
      totalFrom (inserted ts p.topicName) (before ++ [check]) gap ≤
          totalFrom (removed ts p.topicName) (before ++ [check]) gap ∨
        totalFrom (inserted ts p.topicName) (before ++ [check]) gap <
          totalFrom (removed ts p.topicName) (before ++ [check]) gap +
            (maxInstancesPerTopic - handleCount (exec ts before).cache p.topicName)
  | _ => True

theorem bounded_empty : Bounded empty := by
  intro t
  simp [handleCount, empty]

theorem bounded_storeSection_iff {c : InstanceCache} (hc : Bounded c) {p : PendingStore}
    (hp : IsLive c p) :
    Bounded (storeSection c p) ↔
      (lookup c p.topicName p.instanceHandle = none →
        handleCount c p.topicName < maxInstancesPerTopic) := by
  constructor
  · intro h hnone
    have hcount := h p.topicName
    rw [handleCount_storeSection hp, if_pos ⟨rfl, hnone⟩] at hcount
    exact hcount
  · intro h t
    rw [handleCount_storeSection hp]
    split
    · rename_i he
      obtain ⟨rfl, hnone⟩ := he
      exact h hnone
    · exact hc t

/-- The room that the check section found is what makes an undisturbed store fit. -/
theorem InGap.roomLeft_iff {call : ℕ} {p : PendingStore} {before gap : List (Step τ π)}
    {check : Step τ π} (h : InGap ts call p before check gap) (hclear : .clear ∉ gap) :
    (totalFrom (inserted ts p.topicName) (before ++ [check]) gap ≤
          totalFrom (removed ts p.topicName) (before ++ [check]) gap ∨
        totalFrom (inserted ts p.topicName) (before ++ [check]) gap <
          totalFrom (removed ts p.topicName) (before ++ [check]) gap +
            (maxInstancesPerTopic - handleCount (exec ts before).cache p.topicName)) ↔
      handleCount (exec ts (before ++ check :: gap)).cache p.topicName <
        maxInstancesPerTopic := by
  have hcount := h.handleCount_add hclear p.topicName
  have hroom := h.room_found
  omega

theorem bounded_store_iff (es : List (Step τ π)) (call : ℕ) (hb : Bounded (exec ts es).cache) :
    Bounded (exec ts (es ++ [.store call])).cache ↔ RoomLeft ts es (.store call) := by
  rw [exec_concat]
  cases hp : (exec ts es).pending call with
  | none =>
      rw [step_store_none hp]
      refine iff_of_true hb ?_
      rintro p before check gap rfl hgap
      simp [hgap.pending_eq] at hp
  | some p =>
      rw [cache_step_store hp]
      constructor
      · rintro hafter p' before check gap rfl hgap hclear hnew
        obtain rfl : p = p' := Option.some.inj (hp.symm.trans hgap.pending_eq)
        have hfits := (bounded_storeSection_iff hb (hgap.isLive_iff.mpr hclear)).mp hafter
        exact (hgap.roomLeft_iff hclear).mpr (hfits hnew)
      · intro hroom
        obtain ⟨before, check, gap, rfl, hgap⟩ := exists_inGap hp
        by_cases hclear : .clear ∉ gap
        · refine (bounded_storeSection_iff hb (hgap.isLive_iff.mpr hclear)).mpr fun hnew => ?_
          exact (hgap.roomLeft_iff hclear).mp (hroom p before check gap rfl hgap hclear hnew)
        · rw [storeSection_of_not_live (mt hgap.isLive_iff.mp hclear)]
          exact hb

theorem bounded_concat_iff (es : List (Step τ π)) (e : Step τ π)
    (hb : Bounded (exec ts es).cache) :
    Bounded (exec ts (es ++ [e])).cache ↔ RoomLeft ts es e := by
  cases e with
  | store call => exact bounded_store_iff es call hb
  | check call topic ty data =>
      refine iff_of_true (fun t => ?_) trivial
      have he : (.check call topic ty data : Step τ π) ≠ .clear := by simp
      exact (handleCount_concat ts es he t).trans_le (hb t)
  | onWriterChanged w t' active =>
      refine iff_of_true (fun t => ?_) trivial
      have he : (.onWriterChanged w t' active : Step τ π) ≠ .clear := by simp
      exact (Nat.le_add_right _ _).trans ((handleCount_concat ts es he t).trans_le (hb t))
  | clear =>
      refine iff_of_true (fun t => ?_) trivial
      rw [exec_concat]
      simp [step]

/-- The limit holds throughout an execution if and only if, between the two sections of every
add, the other threads leave room in what its check section found. -/
theorem bounded_iff_roomLeft (es : List (Step τ π)) :
    Always (fun pre => Bounded (exec ts pre).cache) es ↔ EachStep (RoomLeft ts) es :=
  always_iff_eachStep bounded_empty bounded_concat_iff es

/-! ## Adds that pass the capacity check together -/

/-- Every add checks before any of them stores. -/
def race (n : ℕ) : List (Step Unit Unit) :=
  (List.range n).map (fun i => .check i keyedTopic () (keyedSample ⟨1, 2⟩ (BitVec.ofNat 128 i)))

def raceStores (n : ℕ) : List (Step Unit Unit) := (List.range n).map .store

theorem clear_not_mem_race (n k : ℕ) : .clear ∉ race n ++ raceStores k := by
  simp [race, raceStores]

/-- While nothing is stored every check passes the capacity test. -/
theorem exec_race (n : ℕ) :
    (∀ h, lookup (exec keyedType (race n)).cache "topic" h = none) ∧
    handleCount (exec keyedType (race n)).cache "topic" = 0 ∧
    (∀ i, n ≤ i → (exec keyedType (race n)).pending i = none) ∧
    ∀ i < n, ∃ p, (exec keyedType (race n)).pending i = some p ∧ p.topicName = "topic" ∧
      p.instanceHandle = BitVec.ofNat 128 i := by
  induction n with
  | zero => simp [race, init, handleCount, empty, lookup]
  | succ n ih =>
      obtain ⟨hlookup, hcount, hfree, hpending⟩ := ih
      have hrace : race (n + 1) = race n ++
          [.check n keyedTopic () (keyedSample ⟨1, 2⟩ (BitVec.ofNat 128 n))] := by
        simp [race, List.range_succ]
      have hidle := hfree n le_rfl
      have hspec := checkSection_spec keyedType (exec keyedType (race n)).cache
        "topic" () (keyedSample ⟨1, 2⟩ (BitVec.ofNat 128 n))
      have hslow : ¬ FastPath keyedType (exec keyedType (race n)).cache "topic" ()
          (BitVec.ofNat 128 n) := by
        intro hfast
        obtain ⟨-, info, hl, -⟩ := hfast
        simp [hlookup] at hl
      obtain ⟨node, hnode⟩ := hspec.slowPath_iff.mpr
        ⟨.inr (by decide), by simp [Cached, hlookup],
          fun _ => by simp [hcount, maxInstancesPerTopic]⟩
      rw [hrace, exec_concat, cache_step_check hidle]
      refine ⟨fun h => (hspec.lookup_slow hslow _ h).trans (hlookup h),
        (hspec.handleCount_eq _).trans hcount, ?_, ?_⟩
      · intro i hi
        rw [pending_step_check hidle, if_neg (by omega)]
        exact hfree i (by omega)
      · intro i hi
        rw [pending_step_check hidle]
        by_cases hin : i = n
        · subst hin
          rw [if_pos rfl]
          change ∃ p, afterCheck keyedType "topic" () (keyedSample ⟨1, 2⟩ (BitVec.ofNat 128 i))
            (checkSection keyedType _ "topic" () _).2 = some p ∧ _
          rw [hnode]
          exact ⟨⟨"topic", node, _, ⟨1, 2⟩, _, keyedType_serializes⟩, rfl, rfl, rfl⟩
        · rw [if_neg hin]
          exact hpending i (by omega)

/-- The store sections then insert one instance each, whatever the limit. -/
theorem exec_race_stores (n k : ℕ) (hn : n ≤ 2 ^ 128) (hk : k ≤ n) :
    handleCount (exec keyedType (race n ++ raceStores k)).cache "topic" = k ∧
    ∀ i, k ≤ i → i < n →
      lookup (exec keyedType (race n ++ raceStores k)).cache "topic" (BitVec.ofNat 128 i) = none ∧
      ∃ p, (exec keyedType (race n ++ raceStores k)).pending i = some p ∧ p.topicName = "topic" ∧
        p.instanceHandle = BitVec.ofNat 128 i := by
  induction k with
  | zero =>
      obtain ⟨hlookup, hcount, -, hpending⟩ := exec_race n
      simpa [raceStores, hlookup, hcount] using hpending
  | succ k ih =>
      obtain ⟨hcount, hrest⟩ := ih (by omega)
      obtain ⟨hnone, p, hp, htopic, hhandle⟩ := hrest k le_rfl (by omega)
      have hlive : IsLive (exec keyedType (race n ++ raceStores k)).cache p :=
        (isLive_iff_not_clearedInGap hp).mpr
          (not_clearedInGap_of_not_mem (clear_not_mem_race n k) k)
      have hstores : race n ++ raceStores (k + 1) = (race n ++ raceStores k) ++ [.store k] := by
        simp [raceStores, List.range_succ]
      rw [hstores, exec_concat, cache_step_store hp]
      refine ⟨?_, ?_⟩
      · rw [handleCount_storeSection hlive, hhandle, if_pos ⟨htopic, hnone⟩, hcount]
      · intro i hki hin
        obtain ⟨hnone', hpending⟩ := hrest i (by omega) hin
        rw [lookup_storeSection hlive, pending_step_store]
        refine ⟨?_, by simpa [show i ≠ k by omega] using hpending⟩
        have hne : p.instanceHandle ≠ BitVec.ofNat 128 i := by
          rw [hhandle]
          intro heq
          have := congrArg BitVec.toNat heq
          simp only [BitVec.toNat_ofNat] at this
          rw [Nat.mod_eq_of_lt (by omega), Nat.mod_eq_of_lt (by omega)] at this
          omega
        simp [hne, hnone']

/-- One more add than the limit, all checked against the empty cache. -/
theorem not_bounded_race :
    ¬ Always (fun pre => Bounded (exec keyedType pre).cache) (race 1001 ++ raceStores 1001) := by
  intro h
  have hb := h.last "topic"
  rw [(exec_race_stores 1001 1001 (by decide) le_rfl).1] at hb
  exact absurd hb (by decide)

end FastDdsSpy.CacheThreads
