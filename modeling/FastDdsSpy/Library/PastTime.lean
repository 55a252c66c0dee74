import Mathlib.Data.List.Induction
import Mathlib.Data.List.Infix

/-! # Past-time properties of runs

A run is the list of its events, oldest first, and a property of a state is a
property of the run that leads to it. Histories grow at the end of the list, so
every operator comes with the equation for one more event. -/

namespace PastTime

variable {ε σ β : Type*}

/-! ## Runs of a step function -/

/-- The state after the events of a run. -/
def run (step : σ → ε → σ) (s : σ) (es : List ε) : σ := es.foldl step s

@[simp] theorem run_nil (step : σ → ε → σ) (s : σ) : run step s [] = s := rfl

@[simp] theorem run_cons (step : σ → ε → σ) (s : σ) (e : ε) (es : List ε) :
    run step s (e :: es) = run step (step s e) es := rfl

@[simp] theorem run_append (step : σ → ε → σ) (s : σ) (es fs : List ε) :
    run step s (es ++ fs) = run step (run step s es) fs :=
  List.foldl_append

/-- A property of the states that every step preserves holds after every run. -/
theorem run_induction {step : σ → ε → σ} (I : σ → Prop)
    (hstep : ∀ s e, I s → I (step s e)) {s : σ} (h : I s) (es : List ε) :
    I (run step s es) := by
  induction es generalizing s with
  | nil => exact h
  | cons e es ih => exact ih (hstep s e h)

/-! ## Safety properties -/

/-- `P` holds at every point of the run. -/
def Always (P : List ε → Prop) (es : List ε) : Prop :=
  ∀ pre, pre <+: es → P pre

/-- Every event of the run meets `C` after the events before it. -/
def EachStep (C : List ε → ε → Prop) (es : List ε) : Prop :=
  ∀ pre e, pre ++ [e] <+: es → C pre e

theorem always_nil {P : List ε → Prop} : Always P [] ↔ P [] := by
  simp [Always]

theorem always_concat {P : List ε → Prop} {es : List ε} {e : ε} :
    Always P (es ++ [e]) ↔ Always P es ∧ P (es ++ [e]) := by
  simp only [Always, List.prefix_concat_iff]
  constructor
  · intro h
    exact ⟨fun pre hp => h pre (.inr hp), h _ (.inl rfl)⟩
  · intro h pre hp
    obtain ⟨hes, hlast⟩ := h
    rcases hp with rfl | hp
    · exact hlast
    · exact hes pre hp

theorem eachStep_nil {C : List ε → ε → Prop} : EachStep C [] := by
  intro pre e h
  simp at h

theorem eachStep_concat {C : List ε → ε → Prop} {es : List ε} {e : ε} :
    EachStep C (es ++ [e]) ↔ EachStep C es ∧ C es e := by
  simp only [EachStep, List.prefix_concat_iff]
  constructor
  · intro h
    exact ⟨fun pre e' hp => h pre e' (.inr hp), h es e (.inl rfl)⟩
  · intro h pre e' hp
    obtain ⟨hes, hlast⟩ := h
    rcases hp with heq | hp
    · obtain ⟨rfl, rfl⟩ := List.append_singleton_inj.mp heq
      exact hlast
    · exact hes pre e' hp

theorem eachStep_singleton {C : List ε → ε → Prop} {e : ε} : EachStep C [e] ↔ C [] e := by
  rw [← List.nil_append [e], eachStep_concat]
  exact and_iff_right eachStep_nil

theorem eachStep_cons {C : List ε → ε → Prop} {e : ε} {es : List ε} :
    EachStep C (e :: es) ↔ C [] e ∧ EachStep (fun pre => C (e :: pre)) es := by
  induction es using List.reverseRecOn with
  | nil => simp [eachStep_singleton, eachStep_nil]
  | append_singleton es e' ih =>
      rw [← List.cons_append, eachStep_concat, eachStep_concat, ih, and_assoc]

/-- A condition on single events, ignoring what came before them. -/
theorem eachStep_of_forall_mem {Q : ε → Prop} {es : List ε} (h : ∀ e ∈ es, Q e) :
    EachStep (fun _ e => Q e) es := by
  intro pre e hp
  exact h e (hp.subset (List.mem_append_right pre (List.mem_singleton_self e)))

theorem eachStep_iff_forall_mem {Q : ε → Prop} {es : List ε} :
    EachStep (fun _ e => Q e) es ↔ ∀ e ∈ es, Q e := by
  refine ⟨fun h e he => ?_, eachStep_of_forall_mem⟩
  obtain ⟨pre, post, rfl⟩ := List.append_of_mem he
  exact h pre e ⟨post, by simp⟩

theorem Always.last {P : List ε → Prop} {es : List ε} (h : Always P es) : P es :=
  h es (List.prefix_refl es)

/-- A safety property with an exact step condition: it holds throughout a run
if and only if every step of the run meets the condition. -/
theorem always_iff_eachStep {P : List ε → Prop} {C : List ε → ε → Prop} (h0 : P [])
    (hstep : ∀ es e, P es → (P (es ++ [e]) ↔ C es e)) (es : List ε) :
    Always P es ↔ EachStep C es := by
  induction es using List.reverseRecOn with
  | nil => simp [always_nil, h0, eachStep_nil]
  | append_singleton es e ih =>
      rw [always_concat, eachStep_concat, ih]
      constructor
      · intro h
        obtain ⟨hes, he⟩ := h
        exact ⟨hes, (hstep es e (ih.mpr hes).last).mp he⟩
      · intro h
        obtain ⟨hes, he⟩ := h
        exact ⟨hes, (hstep es e (ih.mpr hes).last).mpr he⟩

/-- The same when the property may also fail at the start. -/
theorem always_iff_start_and_eachStep {P : List ε → Prop} {C : List ε → ε → Prop}
    (hstep : ∀ es e, P es → (P (es ++ [e]) ↔ C es e)) (es : List ε) :
    Always P es ↔ P [] ∧ EachStep C es := by
  by_cases h0 : P []
  · rw [always_iff_eachStep h0 hstep]
    simp [h0]
  · exact iff_of_false (fun h => h0 (h [] (List.nil_prefix))) (fun h => h0 h.1)

/-- A sufficient step condition keeps a safety property throughout the run. -/
theorem always_of_eachStep {P : List ε → Prop} {C : List ε → ε → Prop} (h0 : P [])
    (hstep : ∀ es e, P es → C es e → P (es ++ [e])) {es : List ε}
    (h : EachStep C es) : Always P es := by
  induction es using List.reverseRecOn with
  | nil => exact always_nil.mpr h0
  | append_singleton es e ih =>
      obtain ⟨hes, he⟩ := eachStep_concat.mp h
      exact always_concat.mpr ⟨ih hes, hstep es e (ih hes).last he⟩

/-! ## The last event of a kind -/

/-- The value carried by the most recent event on which `f` is defined. -/
def latest (f : ε → Option β) (es : List ε) : Option β := (es.filterMap f).getLast?

@[simp] theorem latest_nil (f : ε → Option β) : latest f [] = none := rfl

theorem latest_append (f : ε → Option β) (es fs : List ε) :
    latest f (es ++ fs) = (latest f fs).or (latest f es) := by
  simp [latest, List.filterMap_append, List.getLast?_append]

theorem latest_concat (f : ε → Option β) (es : List ε) (e : ε) :
    latest f (es ++ [e]) = (f e).or (latest f es) := by
  cases h : f e <;> simp [latest, List.filterMap_append, h]

theorem latest_cons (f : ε → Option β) (e : ε) (es : List ε) :
    latest f (e :: es) = (latest f es).or (f e) := by
  rw [← List.singleton_append, latest_append, ← List.nil_append [e], latest_concat, latest_nil,
    Option.or_none]

/-- Once there has been such an event, there is always a most recent one. -/
theorem isSome_latest_of_prefix {f : ε → Option β} {pre es : List ε} (hpre : pre <+: es)
    (h : (latest f pre).isSome = true) : (latest f es).isSome = true := by
  obtain ⟨post, rfl⟩ := hpre
  rw [latest_append, Option.isSome_or, h, Bool.or_true]

theorem exists_mem_of_latest {f : ε → Option β} {es : List ε} {b : β}
    (h : latest f es = some b) : ∃ e ∈ es, f e = some b :=
  List.mem_filterMap.mp (List.mem_of_getLast? h)

/-! ## The first event of a kind -/

/-- The value of `f` at the first event of the second list where it has one; the events
before it are those of the first list and those passed over. -/
def earliestFrom (f : List ε → ε → Option β) : List ε → List ε → Option β
  | _, [] => none
  | pre, e :: es => (f pre e).or (earliestFrom f (pre ++ [e]) es)

/-- The value of `f` at the first event of the run where it has one. -/
def earliest (f : List ε → ε → Option β) (es : List ε) : Option β := earliestFrom f [] es

@[simp] theorem earliest_nil (f : List ε → ε → Option β) : earliest f [] = none := rfl

theorem earliestFrom_concat (f : List ε → ε → Option β) (pre es : List ε) (e : ε) :
    earliestFrom f pre (es ++ [e]) = (earliestFrom f pre es).or (f (pre ++ es) e) := by
  induction es generalizing pre with
  | nil => simp [earliestFrom]
  | cons e' es ih => simp [earliestFrom, ih, Option.or_assoc]

theorem earliest_concat (f : List ε → ε → Option β) (es : List ε) (e : ε) :
    earliest f (es ++ [e]) = (earliest f es).or (f es e) :=
  earliestFrom_concat f [] es e

/-- What holds of every value of `f` holds of the first one. -/
theorem of_earliest {f : List ε → ε → Option β} {P : β → Prop}
    (hf : ∀ pre e b, f pre e = some b → P b) {es : List ε} {b : β}
    (h : earliest f es = some b) : P b := by
  induction es using List.reverseRecOn with
  | nil => simp at h
  | append_singleton es e ih =>
      rw [earliest_concat] at h
      cases hes : earliest f es with
      | none => exact hf es e b (by simpa [hes] using h)
      | some b' => exact ih (by simpa [hes] using h)

/-! ## Counting along a run -/

/-- The sum of `f` over the events of the second list, which come after those of the first. -/
def totalFrom (f : List ε → ε → ℕ) : List ε → List ε → ℕ
  | _, [] => 0
  | pre, e :: es => f pre e + totalFrom f (pre ++ [e]) es

theorem totalFrom_concat (f : List ε → ε → ℕ) (pre es : List ε) (e : ε) :
    totalFrom f pre (es ++ [e]) = totalFrom f pre es + f (pre ++ es) e := by
  induction es generalizing pre with
  | nil => simp [totalFrom]
  | cons e' es ih => simp [totalFrom, ih, Nat.add_assoc]

/-! ## Since and once -/

/-- `set` held at some event and `kill` has held at no event after it. -/
def Since (set kill : List ε → ε → Prop) (es : List ε) : Prop :=
  ∃ pre e post, es = pre ++ e :: post ∧ set pre e ∧
    ∀ mid e' rest, post = mid ++ e' :: rest → ¬ kill (pre ++ e :: mid) e'

theorem not_since_nil {set kill : List ε → ε → Prop} : ¬ Since set kill [] := by
  intro hsince
  obtain ⟨pre, e, post, h, -⟩ := hsince
  simp at h

theorem since_concat {set kill : List ε → ε → Prop} {es : List ε} {e : ε} :
    Since set kill (es ++ [e]) ↔ set es e ∨ (Since set kill es ∧ ¬ kill es e) := by
  constructor
  · intro hsince
    obtain ⟨pre, a, post, heq, hset, hkill⟩ := hsince
    -- either the last event is the one that set, or it is the last of those that did not kill
    rcases List.eq_nil_or_concat post with rfl | ⟨post, b, rfl⟩
    · obtain ⟨rfl, rfl⟩ := List.append_singleton_inj.mp heq
      exact .inl hset
    · rw [List.concat_eq_append, ← List.cons_append, ← List.append_assoc] at heq
      obtain ⟨rfl, rfl⟩ := List.append_singleton_inj.mp heq
      refine .inr ⟨⟨pre, a, post, rfl, hset, ?_⟩, hkill post e [] (by simp)⟩
      intro mid e' rest h
      exact hkill mid e' (rest ++ [e]) (by simp [h])
  · intro h
    rcases h with hset | ⟨⟨pre, a, post, rfl, hset, hkill⟩, hlast⟩
    · exact ⟨es, e, [], rfl, hset, by simp⟩
    · refine ⟨pre, a, post ++ [e], by simp, hset, ?_⟩
      intro mid e' rest h
      rcases List.eq_nil_or_concat rest with rfl | ⟨rest, b, rfl⟩
      · obtain ⟨rfl, rfl⟩ := List.append_singleton_inj.mp h
        exact hlast
      · rw [List.concat_eq_append, ← List.cons_append, ← List.append_assoc] at h
        obtain ⟨rfl, -⟩ := List.append_singleton_inj.mp h
        exact hkill mid e' rest rfl

/-- `C` held at some event. -/
def Once (C : List ε → ε → Prop) (es : List ε) : Prop := Since C (fun _ _ => False) es

theorem not_once_nil {C : List ε → ε → Prop} : ¬ Once C [] := not_since_nil

theorem once_concat {C : List ε → ε → Prop} {es : List ε} {e : ε} :
    Once C (es ++ [e]) ↔ C es e ∨ Once C es := by
  simp [Once, since_concat]

theorem once_singleton {C : List ε → ε → Prop} {e : ε} : Once C [e] ↔ C [] e := by
  rw [← List.nil_append [e], once_concat]
  exact or_iff_left not_once_nil

end PastTime
