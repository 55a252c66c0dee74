import FastDdsSpy.Model.StreamThreads
import FastDdsSpy.Verification.DataStreamer.Equations
import FastDdsSpy.Verification.Instances

/-! # Printing while data arrives

What the streamer prints is set by the last of `activate_all`, `activate` and
`deactivate`. An `add_data` decides by that mode in its check, but calls whatever
callback it finds when it invokes. -/

namespace FastDdsSpy.StreamThreads

open Std DataStreamer PastTime

/-- What an activation or a deactivation asks for. -/
inductive Mode (κ : Type*)
  | all (callback : κ)
  | topic (filter : WildcardDdsFilterTopic) (callback : κ)
  | off

namespace Mode

variable {κ : Type*}

/-- The samples of the topic are to be printed. -/
def selects (env : External) (mode : Mode κ) (topic : DdsTopic) : Bool :=
  match mode with
  | all _ => true
  | .topic filter _ => env.topicMatches filter topic
  | off => false

/-- The callback that the activation was given. -/
def callback : Mode κ → Option κ
  | all callback => some callback
  | .topic _ callback => some callback
  | off => none

theorem exists_callback {env : External} {mode : Mode κ} {topic : DdsTopic}
    (h : mode.selects env topic = true) : ∃ callback, mode.callback = some callback := by
  cases mode with
  | all callback => exact ⟨callback, rfl⟩
  | topic filter callback => exact ⟨callback, rfl⟩
  | off => simp [selects] at h

end Mode

variable {τ π δ κ : Type*} {env : External} {ts : TypeSupport τ π δ}

def Step.mode : Step τ π κ → Option (Mode κ)
  | .activateAll callback => some (.all callback)
  | .activate topicToActivate callback => some (.topic topicToActivate callback)
  | .deactivate => some .off
  | _ => none

/-- The mode set last; nothing is printed at the start. -/
def currentMode (es : List (Step τ π κ)) : Mode κ := (latest Step.mode es).getD .off

theorem currentMode_concat (es : List (Step τ π κ)) (e : Step τ π κ) :
    currentMode (es ++ [e]) = e.mode.getD (currentMode es) := by
  rw [currentMode, latest_concat, currentMode]
  cases e.mode <;> rfl

@[simp] theorem exec_nil : exec env ts ([] : List (Step τ π κ)) = init := rfl

@[simp] theorem exec_concat (es : List (Step τ π κ)) (e : Step τ π κ) :
    exec env ts (es ++ [e]) = step env ts (exec env ts es) e := by
  simp [exec]

/-! ## The streamer knows its history -/

/-- The mode that the fields of the streamer stand for. -/
structure InMode (env : External) (ds : DataStreamer τ κ) (mode : Mode κ) : Prop where
  callback_eq : ds.callback = mode.callback
  selects_eq : ∀ topic, (ds.activated && (ds.activatedAll ||
    env.topicMatches ds.activatedTopic topic)) = mode.selects env topic

theorem inMode_exec (env : External) (ts : TypeSupport τ π δ) (es : List (Step τ π κ)) :
    InMode env (exec env ts es).streamer (currentMode es) := by
  induction es using List.reverseRecOn with
  | nil => exact ⟨rfl, fun topic => rfl⟩
  | append_singleton es e ih =>
      rw [exec_concat, currentMode_concat]
      cases e with
      | check call topic data =>
          simp only [step, checkData_fst]
          split
          · exact ⟨ih.callback_eq, ih.selects_eq⟩
          · exact ih
      | invoke call =>
          simp only [step, invokeData_fst]
          split
          · exact ih
          · exact ⟨ih.callback_eq, ih.selects_eq⟩
      | activateAll callback => exact ⟨rfl, fun topic => rfl⟩
      | activate filter callback => exact ⟨rfl, fun topic => rfl⟩
      | deactivate => exact ⟨rfl, fun topic => rfl⟩
      | addSchema ty => exact ⟨ih.callback_eq, ih.selects_eq⟩

/-- Some `add_schema` registered a type of this name. -/
def TypeKnown (ts : TypeSupport τ π δ) (typeName : String) (es : List (Step τ π κ)) : Prop :=
  ∃ ty, .addSchema ty ∈ es ∧ ts.getName ty = typeName

theorem typesDiscovered_ne_none_iff (env : External) (ts : TypeSupport τ π δ)
    (es : List (Step τ π κ)) (typeName : String) :
    (exec env ts es).streamer.typesDiscovered[typeName]? ≠ none ↔ TypeKnown ts typeName es := by
  induction es using List.reverseRecOn with
  | nil => simp [init, empty, TypeKnown]
  | append_singleton es e ih =>
      have hconcat : TypeKnown ts typeName (es ++ [e]) ↔
          TypeKnown ts typeName es ∨ ∃ ty, e = .addSchema ty ∧ ts.getName ty = typeName := by
        simp only [TypeKnown, List.mem_append, List.mem_singleton, or_and_right, exists_or,
          eq_comm]
      rw [exec_concat, hconcat, ← ih]
      cases e with
      | check call topic data =>
          simp only [step, checkData_fst]
          split <;> simp
      | invoke call =>
          simp only [step, invokeData_fst]
          split <;> simp
      | addSchema ty =>
          by_cases hn : ts.getName ty = typeName
          · simp [step, addSchema, hn]
          · simp [step, addSchema, ExtTreeMap.getElem?_insert, hn]
      | activateAll | activate | deactivate => simp [step, activateAll, activate, deactivate]

/-! ## The gap between check and invoke -/

/-- Samples of the topic are to be printed and their type is registered. -/
def Selected (env : External) (ts : TypeSupport τ π δ) (topic : DdsTopic)
    (es : List (Step τ π κ)) : Prop :=
  TypeKnown ts topic.typeName es ∧ (currentMode es).selects env topic = true

/-- The call is in its gap and its sample was selected when it checked. -/
def SelectedAtCheck (env : External) (ts : TypeSupport τ π δ) (call : ℕ)
    (es : List (Step τ π κ)) : Prop :=
  Since (fun pre e => ∃ topic data, e = .check call topic data ∧
      ((exec env ts pre).pending call).isNone = true ∧ Selected env ts topic pre)
    (fun _ e => e = .invoke call) es

/-- The call is in its gap with a sample that was selected, and the last change of mode
in the gap is not an activation that matches the topic of the sample. -/
def LostInGap (env : External) (ts : TypeSupport τ π δ) (call : ℕ)
    (es : List (Step τ π κ)) : Prop :=
  Since (fun pre e => SelectedAtCheck env ts call pre ∧ ∃ p mode,
      (exec env ts pre).pending call = some p ∧ e.mode = some mode ∧
        mode.selects env p.topic = false)
    (fun pre e => e = .invoke call ∨ ∃ p mode,
      (exec env ts pre).pending call = some p ∧ e.mode = some mode ∧
        mode.selects env p.topic = true) es

section Concat

variable {call : ℕ} {es : List (Step τ π κ)} {e : Step τ π κ}

theorem selectedAtCheck_concat : SelectedAtCheck env ts call (es ++ [e]) ↔
    (∃ topic data, e = .check call topic data ∧
      ((exec env ts es).pending call).isNone = true ∧ Selected env ts topic es) ∨
      (SelectedAtCheck env ts call es ∧ ¬ e = .invoke call) :=
  since_concat

theorem lostInGap_concat : LostInGap env ts call (es ++ [e]) ↔
    (SelectedAtCheck env ts call es ∧ ∃ p mode, (exec env ts es).pending call = some p ∧
      e.mode = some mode ∧ mode.selects env p.topic = false) ∨
    (LostInGap env ts call es ∧ ¬ (e = .invoke call ∨ ∃ p mode,
      (exec env ts es).pending call = some p ∧ e.mode = some mode ∧
        mode.selects env p.topic = true)) :=
  since_concat

end Concat

/-- What the gap of a call remembers: whether the callback is to be called, and whether
the current mode still selects the sample. -/
def GapInv (env : External) (ts : TypeSupport τ π δ) (call : ℕ) (es : List (Step τ π κ)) :
    Option (PendingData τ π) → Prop
  | none => ¬ SelectedAtCheck env ts call es ∧ ¬ LostInGap env ts call es
  | some p => (p.shouldCallCallback = true ↔ SelectedAtCheck env ts call es) ∧
      (LostInGap env ts call es ↔
        SelectedAtCheck env ts call es ∧ (currentMode es).selects env p.topic = false)

/-- A step that neither belongs to the call nor changes the mode leaves its gap alone. -/
theorem gapInv_frame {call : ℕ} {es : List (Step τ π κ)} {e : Step τ π κ}
    {pending : Option (PendingData τ π)} (hcheck : ∀ topic data, e ≠ .check call topic data)
    (hinvoke : e ≠ .invoke call) (hmode : e.mode = none) (h : GapInv env ts call es pending) :
    GapInv env ts call (es ++ [e]) pending := by
  have hsel : SelectedAtCheck env ts call (es ++ [e]) ↔ SelectedAtCheck env ts call es := by
    simp [selectedAtCheck_concat, hcheck, hinvoke]
  have hlost : LostInGap env ts call (es ++ [e]) ↔ LostInGap env ts call es := by
    simp [lostInGap_concat, hmode, hinvoke]
  have hcur : currentMode (es ++ [e]) = currentMode es := by
    simp [currentMode_concat, hmode]
  cases pending with
  | none => simpa only [GapInv, hsel, hlost] using h
  | some p => simpa only [GapInv, hsel, hlost, hcur] using h

/-- A change of mode decides anew for every selected sample in its gap. -/
theorem gapInv_mode {call : ℕ} {es : List (Step τ π κ)} {e : Step τ π κ} {mode : Mode κ}
    (hmode : e.mode = some mode)
    (h : GapInv env ts call es ((exec env ts es).pending call)) :
    GapInv env ts call (es ++ [e]) ((exec env ts es).pending call) := by
  have hcheck : ∀ topic data, e ≠ .check call topic data := by
    rintro topic data rfl
    simp [Step.mode] at hmode
  have hinvoke : e ≠ .invoke call := by
    rintro rfl
    simp [Step.mode] at hmode
  have hsel : SelectedAtCheck env ts call (es ++ [e]) ↔ SelectedAtCheck env ts call es := by
    simp [selectedAtCheck_concat, hcheck, hinvoke]
  cases hp : (exec env ts es).pending call with
  | none =>
      rw [hp] at h
      refine ⟨by rw [hsel]; exact h.1, ?_⟩
      simpa [lostInGap_concat, hp, hinvoke] using h.2
  | some p =>
      rw [hp] at h
      refine ⟨by rw [hsel]; exact h.1, ?_⟩
      have hlost : LostInGap env ts call es → SelectedAtCheck env ts call es :=
        fun hl => (h.2.mp hl).1
      rw [lostInGap_concat, hsel, currentMode_concat, hmode, hp]
      cases hm : mode.selects env p.topic with
      | true => simp [hm, hinvoke]
      | false => simpa [hm, hinvoke] using hlost

/-- A new call enters its gap with the decision of its check. -/
theorem gapInv_check {call : ℕ} {es : List (Step τ π κ)} (topic : DdsTopic)
    (data : RtpsPayloadData π) (hidle : (exec env ts es).pending call = none)
    (h : GapInv env ts call es none) :
    GapInv env ts call (es ++ [.check call topic data])
      (checkData env (exec env ts es).streamer topic data).2 := by
  have hsel : SelectedAtCheck env ts call (es ++ [.check call topic data]) ↔
      Selected env ts topic es := by
    simp [selectedAtCheck_concat, hidle, h.1]
  have hlost : ¬ LostInGap env ts call (es ++ [.check call topic data]) := by
    simp [lostInGap_concat, hidle, h.2]
  have htype := typesDiscovered_ne_none_iff env ts es topic.typeName
  rw [checkData_snd]
  cases hty : (exec env ts es).streamer.typesDiscovered[topic.typeName]? with
  | none =>
      have hunknown : ¬ TypeKnown ts topic.typeName es := by simpa [hty] using htype
      exact ⟨fun hselected => hunknown (hsel.mp hselected).1, hlost⟩
  | some ty =>
      have hknown : TypeKnown ts topic.typeName es := by simpa [hty] using htype
      have hmode := (inMode_exec env ts es).selects_eq topic
      constructor
      · rw [hsel]
        simp [Selected, hknown, hmode]
      · rw [hsel]
        simp [hlost, Selected, currentMode_concat, Step.mode]

theorem pending_step_check_of_ne {s : State τ π κ} {call call' : ℕ} (hne : call ≠ call')
    (topic : DdsTopic) (data : RtpsPayloadData π) :
    (step env ts s (.check call' topic data)).pending call = s.pending call := by
  simp only [step]
  split
  · simp [hne]
  · rfl

theorem pending_step_invoke (s : State τ π κ) (call call' : ℕ) :
    (step env ts s (.invoke call')).pending call =
      if call = call' then none else s.pending call := by
  by_cases hc : call = call'
  · subst hc
    cases hp : s.pending call with
    | none => simp [step, hp]
    | some p => simp [step, hp]
  · cases hp : s.pending call' with
    | none => simp [step, hp, hc]
    | some p => simp [step, hp, hc]

theorem gapInv_exec (env : External) (ts : TypeSupport τ π δ) (es : List (Step τ π κ))
    (call : ℕ) : GapInv env ts call es ((exec env ts es).pending call) := by
  induction es using List.reverseRecOn with
  | nil => exact ⟨not_since_nil, not_since_nil⟩
  | append_singleton es e ih =>
      rw [exec_concat]
      cases e with
      | check call' topic data =>
          by_cases hc : call = call'
          · subst hc
            cases hp : (exec env ts es).pending call with
            | none =>
                have hstep : (step env ts (exec env ts es) (.check call topic data)).pending call =
                    (checkData env (exec env ts es).streamer topic data).2 := by
                  simp [step, hp]
                rw [hp] at ih
                rw [hstep]
                exact gapInv_check topic data hp ih
            | some p =>
                rw [hp] at ih
                simpa [step, hp, GapInv, selectedAtCheck_concat, lostInGap_concat, Step.mode,
                  currentMode_concat] using ih
          · rw [pending_step_check_of_ne hc]
            exact gapInv_frame (by simp [Ne.symm hc]) (by simp) rfl ih
      | invoke call' =>
          rw [pending_step_invoke]
          by_cases hc : call = call'
          · rw [if_pos hc, hc]
            exact ⟨by simp [selectedAtCheck_concat], by simp [lostInGap_concat, Step.mode]⟩
          · rw [if_neg hc]
            exact gapInv_frame (by simp) (by simp [Ne.symm hc]) rfl ih
      | activateAll callback => exact gapInv_mode rfl ih
      | activate filter callback => exact gapInv_mode rfl ih
      | deactivate => exact gapInv_mode rfl ih
      | addSchema ty => exact gapInv_frame (by simp) (by simp) rfl ih

/-! ## What an invoke step finds -/

/-- If the event is an invoke step that is to call the callback, it calls the one that the
current mode was given, and that mode selects the sample. -/
def InvokeFindsMatching (env : External) (ts : TypeSupport τ π δ) (pre : List (Step τ π κ)) :
    Step τ π κ → Prop
  | .invoke call => ∀ p, (exec env ts pre).pending call = some p → p.shouldCallCallback = true →
      ∃ callback, (invokeData ts (exec env ts pre).streamer p).2 =
          .called callback p.topic p.dynType p.data ∧
        (currentMode pre).callback = some callback ∧
        (currentMode pre).selects env p.topic = true
  | _ => True

/-- If the event is an invoke step, its sample was not lost in the gap. -/
def NotLostInGap (env : External) (ts : TypeSupport τ π δ) (pre : List (Step τ π κ)) :
    Step τ π κ → Prop
  | .invoke call => ¬ LostInGap env ts call pre
  | _ => True

/-- In an execution every invoke step finds a callback, and one of a matching activation,
if and only if no selected sample is left behind by a change of mode in its gap. -/
theorem invokeFindsMatching_iff_notLostInGap (env : External) (ts : TypeSupport τ π δ)
    (es : List (Step τ π κ)) :
    EachStep (InvokeFindsMatching env ts) es ↔ EachStep (NotLostInGap env ts) es := by
  refine forall₂_congr fun pre e => imp_congr_right fun _ => ?_
  cases e with
  | invoke call =>
      have hgap := gapInv_exec env ts pre call
      have hmode := inMode_exec env ts pre
      cases hp : (exec env ts pre).pending call with
      | none =>
          rw [hp] at hgap
          exact iff_of_true (by simp [InvokeFindsMatching, hp]) hgap.2
      | some p =>
          rw [hp] at hgap
          simp only [InvokeFindsMatching, NotLostInGap, hp, Option.some.injEq, forall_eq', hgap.2,
            ← hgap.1]
          constructor
          · intro h hboth
            obtain ⟨hcall, hlost⟩ := hboth
            obtain ⟨callback, -, -, hsel⟩ := h hcall
            simp [hsel] at hlost
          · intro h hcall
            have hsel : (currentMode pre).selects env p.topic = true := by
              simpa [hcall] using h
            obtain ⟨callback, hcb⟩ := Mode.exists_callback hsel
            refine ⟨callback, ?_, hcb, hsel⟩
            rw [invokeData_snd_eq_called ts _ p hcall, hmode.callback_eq, hcb]
  | check | activateAll | activate | deactivate | addSchema => exact Iff.rfl

/-- The printing of data is stopped between the two halves of an `add_data`. -/
theorem not_invokeFindsMatching_deactivate :
    ¬ EachStep (InvokeFindsMatching literal keyedType)
      [.addSchema (), .activateAll (), .check 0 keyedTopic (keyedSample ⟨1, 2⟩ 7), .deactivate,
        .invoke 0] := by
  intro h
  obtain ⟨callback, -, hcurrent, -⟩ := h
    [.addSchema (), .activateAll (), .check 0 keyedTopic (keyedSample ⟨1, 2⟩ 7), .deactivate]
    (.invoke 0) (List.prefix_refl _) ⟨keyedTopic, keyedSample ⟨1, 2⟩ 7, (), true⟩ rfl rfl
  have hnull : none = some callback := hcurrent
  simp at hnull

end FastDdsSpy.StreamThreads
