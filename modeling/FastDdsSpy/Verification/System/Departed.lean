import FastDdsSpy.Verification.Instances
import FastDdsSpy.Verification.ModelParser.Inactive
import FastDdsSpy.Verification.System.Steps

/-! # Departed endpoints

The active flag of an entry is written by the discovery records and by the filter
commands. A command that refreshes the flags does not know which endpoints have left. -/

namespace FastDdsSpy.Spy

open Std PastTime ModelParser

variable {τ π δ : Type*} {env : External} {ts : TypeSupport τ π δ} {cfg : Configuration}

theorem endpoint_of_lastRecord (env : External) (ts : TypeSupport τ π δ) (cfg : Configuration)
    {es : List (Event τ π)} {guid : Guid} {endpointInfo : EndpointInfoData}
    (h : lastRecord guid es = some endpointInfo) :
    ∃ active, (exec env ts cfg es).endpoints[guid]? = some (endpointInfo.setActive active) := by
  have hexec := endpoint_exec env ts cfg es guid
  rw [h] at hexec
  exact hexec

theorem guid_of_lastRecord {es : List (Event τ π)} {guid : Guid} {endpointInfo : EndpointInfoData}
    (h : lastRecord guid es = some endpointInfo) : endpointInfo.info.guid = guid := by
  obtain ⟨e, -, he⟩ := exists_mem_of_latest h
  exact Event.guid_of_recordOf he

theorem keyedByGuid_exec (es : List (Event τ π)) :
    KeyedByGuid (exec env ts cfg es).controller.model := by
  intro guid entry hentry
  have hexec := endpoint_exec env ts cfg es guid
  cases hlast : lastRecord guid es with
  | none =>
      rw [hlast] at hexec
      rw [hexec] at hentry
      simp at hentry
  | some endpointInfo =>
      rw [hlast] at hexec
      obtain ⟨active, hsome⟩ := hexec
      obtain rfl := Option.some.inj (hentry.symm.trans hsome)
      exact (endpointInfo.setActive_guid active).trans (guid_of_lastRecord hlast)

/-- An endpoint whose last record is a removal has an inactive entry and is in no listing. -/
def DepartedHidden (env : External) (ts : TypeSupport τ π δ) (cfg : Configuration)
    (pre : List (Event τ π)) : Prop :=
  ∀ guid endpointInfo, lastRecord guid pre = some endpointInfo →
    endpointInfo.info.active = false →
    (∃ entry, (exec env ts cfg pre).endpoints[guid]? = some entry ∧ entry.info.active = false) ∧
      Unlisted env (exec env ts cfg pre).controller.model guid

/-- If the event is a filter command that refreshes the active flags, no departed endpoint
passes the partition filters that it leaves. -/
def RefreshSafe (env : External) (ts : TypeSupport τ π δ) (cfg : Configuration)
    (pre : List (Event τ π)) (e : Event τ π) : Prop :=
  ∀ action, (exec env ts cfg pre).filterAction e = some action → action.refreshes = true →
    ∀ guid endpointInfo, lastRecord guid pre = some endpointInfo →
      endpointInfo.info.active = false →
      ¬ Controller.Passes env
        (action.partitions (exec env ts cfg pre).controller.partitionFilterSet) endpointInfo.info

/-- A departed endpoint is hidden exactly when its entry is still its last record. -/
theorem departedHidden_iff (es : List (Event τ π)) : DepartedHidden env ts cfg es ↔
    ∀ guid endpointInfo, lastRecord guid es = some endpointInfo →
      endpointInfo.info.active = false →
      (exec env ts cfg es).endpoints[guid]? = some endpointInfo := by
  constructor
  · intro h guid endpointInfo hlast hactive
    obtain ⟨⟨entry, hentry, hfalse⟩, -⟩ := h guid endpointInfo hlast hactive
    obtain ⟨active, hsome⟩ := endpoint_of_lastRecord env ts cfg hlast
    obtain rfl := Option.some.inj (hentry.symm.trans hsome)
    have hflag : active = endpointInfo.info.active := by simpa [hactive] using hfalse
    rw [hsome, hflag, EndpointInfoData.setActive_self]
  · intro h guid endpointInfo hlast hactive
    have hentry := h guid endpointInfo hlast hactive
    refine ⟨⟨endpointInfo, hentry, hactive⟩, unlisted_of_notActive env (keyedByGuid_exec es) ?_⟩
    intro entry hsome
    obtain rfl := Option.some.inj (hsome.symm.trans hentry)
    exact hactive

theorem departedHidden_concat_iff (es : List (Event τ π)) (e : Event τ π)
    (h : DepartedHidden env ts cfg es) :
    DepartedHidden env ts cfg (es ++ [e]) ↔ RefreshSafe env ts cfg es e := by
  have hold := (departedHidden_iff es).mp h
  rw [departedHidden_iff]
  simp only [exec_concat, endpoint_step, lastRecord_concat]
  cases ha : (exec env ts cfg es).filterAction e with
  | none =>
      refine iff_of_true ?_ (by simp [RefreshSafe, ha])
      intro guid endpointInfo hlast hactive
      cases hrec : e.recordOf guid with
      | none => simpa using hold guid endpointInfo (by simpa [hrec] using hlast) hactive
      | some record => simpa [hrec] using hlast
  | some action =>
      simp only [RefreshSafe, ha, Option.some.injEq, forall_eq', recordOf_of_action ha,
        Option.none_or]
      by_cases hr : action.refreshes = true
      · simp only [hr, if_true, forall_true_left]
        refine forall₄_congr fun guid endpointInfo hlast hactive => ?_
        rw [hold guid endpointInfo hlast hactive, ← Controller.endpointActive_iff]
        constructor
        · intro hkept hpass
          have heq : endpointInfo.setActive true = endpointInfo := by simpa [hpass] using hkept
          have hflag := congrArg (fun data => data.info.active) heq
          simp [hactive] at hflag
        · intro hpass
          have hflag : Controller.endpointActive env
              (action.partitions (exec env ts cfg es).controller.partitionFilterSet)
              endpointInfo.info = endpointInfo.info.active := by simpa [hactive] using hpass
          rw [Option.map_some, hflag, EndpointInfoData.setActive_self]
      · refine iff_of_true ?_ (by simp [hr])
        intro guid endpointInfo hlast hactive
        simpa [hr] using hold guid endpointInfo hlast hactive

/-- Departed endpoints stay hidden throughout a run if and only if no filter command that
refreshes the active flags runs while a departed endpoint passes its filters. -/
theorem departedHidden_iff_refreshSafe (env : External) (ts : TypeSupport τ π δ)
    (cfg : Configuration) (es : List (Event τ π)) :
    Always (DepartedHidden env ts cfg) es ↔ EachStep (RefreshSafe env ts cfg) es :=
  always_iff_eachStep (by simp [DepartedHidden, lastRecord]) departedHidden_concat_iff es

/-- A writer arrives and leaves, and then the filters are cleared. -/
theorem not_departedHidden_clear :
    ¬ Always (DepartedHidden literal keyedType (withPartitions ∅))
      [.newEndpointInfo (writerRecord ⟨1, 2⟩ "A" true),
        .newEndpointInfo (writerRecord ⟨1, 2⟩ "A" false), .input .filter ["filters", "clear"]] := by
  intro h
  obtain ⟨⟨entry, hentry, hfalse⟩, -⟩ := h.last ⟨1, 2⟩ (writerRecord ⟨1, 2⟩ "A" false) rfl rfl
  have hactive : (exec literal keyedType (withPartitions ∅)
      [.newEndpointInfo (writerRecord ⟨1, 2⟩ "A" true),
        .newEndpointInfo (writerRecord ⟨1, 2⟩ "A" false),
        .input .filter ["filters", "clear"]]).endpoints[(⟨1, 2⟩ : Guid)]?.map
          (fun entry => entry.info.active) = some true := by decide
  rw [hentry] at hactive
  simp [hfalse] at hactive

end FastDdsSpy.Spy
