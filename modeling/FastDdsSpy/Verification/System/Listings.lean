import FastDdsSpy.Verification.Instances
import FastDdsSpy.Verification.System.Departed

/-! # What the listings show under a partition filter

The active flags are computed when a filter command runs. A record that arrives later
stores its own flag, and no listing command recomputes it. -/

namespace FastDdsSpy.Spy

open Std PastTime

variable {τ π δ : Type*} {env : External} {ts : TypeSupport τ π δ} {cfg : Configuration}

/-- The event is a command that recomputes the active flags. -/
def Refreshes (s : Spy τ) (e : Event τ π) : Prop :=
  ∃ action, s.filterAction e = some action ∧ action.refreshes = true

/-- The last record of the endpoint came after the last refresh of the active flags. -/
def Unrefreshed (env : External) (ts : TypeSupport τ π δ) (cfg : Configuration) (guid : Guid)
    (es : List (Event τ π)) : Prop :=
  Since (fun _ e => (e.recordOf guid).isSome = true)
    (fun pre e => Refreshes (exec env ts cfg pre) e) es

theorem unrefreshed_concat {guid : Guid} {es : List (Event τ π)} {e : Event τ π} :
    Unrefreshed env ts cfg guid (es ++ [e]) ↔ (e.recordOf guid).isSome = true ∨
      (Unrefreshed env ts cfg guid es ∧ ¬ Refreshes (exec env ts cfg es) e) :=
  since_concat

/-- Where the active flag of an endpoint comes from: its last record, or the refresh that
came after it. -/
structure FlagSpec (env : External) (ts : TypeSupport τ π δ) (cfg : Configuration)
    (guid : Guid) (es : List (Event τ π)) (endpointInfo : EndpointInfoData) (active : Bool) :
    Prop where
  entry_eq : (exec env ts cfg es).endpoints[guid]? = some (endpointInfo.setActive active)
  of_unrefreshed : Unrefreshed env ts cfg guid es → active = endpointInfo.info.active
  of_refreshed : ¬ Unrefreshed env ts cfg guid es → active = Controller.endpointActive env
    (exec env ts cfg es).controller.partitionFilterSet endpointInfo.info

section FlagSpec

variable {guid : Guid} {es : List (Event τ π)} {e : Event τ π} {endpointInfo : EndpointInfoData}

/-- A record is stored with its own flag. -/
theorem flagSpec_record (ha : (exec env ts cfg es).filterAction e = none)
    (hrec : e.recordOf guid = some endpointInfo) :
    FlagSpec env ts cfg guid (es ++ [e]) endpointInfo endpointInfo.info.active where
  entry_eq := by simp [(step_of_no_action env ts ha).endpoint_eq, hrec]
  of_unrefreshed _ := rfl
  of_refreshed hn := absurd (by simp [unrefreshed_concat, hrec]) hn

theorem FlagSpec.quiet {active : Bool} (h : FlagSpec env ts cfg guid es endpointInfo active)
    (ha : (exec env ts cfg es).filterAction e = none) (hrec : e.recordOf guid = none) :
    FlagSpec env ts cfg guid (es ++ [e]) endpointInfo active := by
  have hquiet := step_of_no_action env ts ha
  have hsame : Unrefreshed env ts cfg guid (es ++ [e]) ↔ Unrefreshed env ts cfg guid es := by
    simp [unrefreshed_concat, hrec, Refreshes, ha]
  refine ⟨?_, fun hu => h.of_unrefreshed (hsame.mp hu), fun hn => ?_⟩
  · simpa [hquiet.endpoint_eq, hrec] using h.entry_eq
  · rw [exec_concat, hquiet.partitionFilterSet_eq]
    exact h.of_refreshed (fun hu => hn (hsame.mpr hu))

/-- A filter command keeps the flag or computes it from the filters that it leaves. -/
theorem FlagSpec.action {active : Bool} {action : FilterAction}
    (h : FlagSpec env ts cfg guid es endpointInfo active)
    (ha : (exec env ts cfg es).filterAction e = some action) :
    ∃ active', FlagSpec env ts cfg guid (es ++ [e]) endpointInfo active' := by
  have hperform := Controller.perform_spec env (exec env ts cfg es).controller action
  have hcontroller := controller_step_of_action env ts ha
  have hrec := recordOf_of_action ha guid
  by_cases hr : action.refreshes = true
  · refine ⟨Controller.endpointActive env (action.partitions
      (exec env ts cfg es).controller.partitionFilterSet) endpointInfo.info, ?_, ?_, ?_⟩
    · rw [exec_concat, endpoints, hcontroller, hperform.endpoint_eq, if_pos hr, h.entry_eq]
      rfl
    · intro hu
      simp [unrefreshed_concat, hrec, Refreshes, ha, hr] at hu
    · intro _
      rw [exec_concat, hcontroller, hperform.partitionFilterSet_eq]
  · have hsame : Unrefreshed env ts cfg guid (es ++ [e]) ↔ Unrefreshed env ts cfg guid es := by
      simp [unrefreshed_concat, hrec, Refreshes, ha, hr]
    refine ⟨active, ?_, fun hu => h.of_unrefreshed (hsame.mp hu), fun hn => ?_⟩
    · rw [exec_concat, endpoints, hcontroller, hperform.endpoint_eq, if_neg hr, h.entry_eq]
    · rw [exec_concat, hcontroller, hperform.partitionFilterSet_eq,
        FilterAction.partitions_of_not_refreshes hr]
      exact h.of_refreshed (fun hu => hn (hsame.mpr hu))

end FlagSpec

theorem flagSpec_exec (env : External) (ts : TypeSupport τ π δ) (cfg : Configuration)
    (es : List (Event τ π)) (guid : Guid) (endpointInfo : EndpointInfoData)
    (h : lastRecord guid es = some endpointInfo) :
    ∃ active, FlagSpec env ts cfg guid es endpointInfo active := by
  induction es using List.reverseRecOn with
  | nil => simp [lastRecord] at h
  | append_singleton es e ih =>
      rw [lastRecord_concat] at h
      cases ha : (exec env ts cfg es).filterAction e with
      | none =>
          cases hrec : e.recordOf guid with
          | some record =>
              obtain rfl : record = endpointInfo := by simpa [hrec] using h
              exact ⟨record.info.active, flagSpec_record ha hrec⟩
          | none =>
              obtain ⟨active, hspec⟩ := ih (by simpa [hrec] using h)
              exact ⟨active, hspec.quiet ha hrec⟩
      | some action =>
          obtain ⟨active, hspec⟩ := ih (by simpa [recordOf_of_action ha] using h)
          exact hspec.action ha

/-- The event is a listing of the writers, readers or topics that `run_command_` runs. -/
def IsListing (s : Spy τ) (e : Event τ π) : Prop :=
  s.printing = false ∧ ∃ command arguments, e = .input command arguments ∧
    (command = .datawriter ∨ command = .datareader ∨ command = .topic)

/-- If the event is a listing under a partition filter, every active entry matches it. -/
def ListingFiltered (env : External) (ts : TypeSupport τ π δ) (cfg : Configuration)
    (pre : List (Event τ π)) (e : Event τ π) : Prop :=
  IsListing (exec env ts cfg pre) e →
    (exec env ts cfg pre).controller.partitionFilterSet ≠ ∅ →
    ∀ (guid : Guid) (entry : EndpointInfoData),
      (exec env ts cfg pre).endpoints[guid]? = some entry → entry.info.active = true →
      Controller.MatchesSome env (exec env ts cfg pre).controller.partitionFilterSet entry.info

/-- If the event is a listing under a partition filter, every endpoint that was announced
as alive after the last refresh matches it. -/
def RecordsFiltered (env : External) (ts : TypeSupport τ π δ) (cfg : Configuration)
    (pre : List (Event τ π)) (e : Event τ π) : Prop :=
  IsListing (exec env ts cfg pre) e →
    (exec env ts cfg pre).controller.partitionFilterSet ≠ ∅ →
    ∀ guid endpointInfo, lastRecord guid pre = some endpointInfo →
      Unrefreshed env ts cfg guid pre → endpointInfo.info.active = true →
      Controller.MatchesSome env (exec env ts cfg pre).controller.partitionFilterSet
        endpointInfo.info

/-- The listings of a run enforce the partition filter if and only if, whenever one is
shown, the records that no refresh has seen yet comply with the filter by themselves. -/
theorem listingFiltered_iff_recordsFiltered (env : External) (ts : TypeSupport τ π δ)
    (cfg : Configuration) (es : List (Event τ π)) :
    EachStep (ListingFiltered env ts cfg) es ↔ EachStep (RecordsFiltered env ts cfg) es := by
  refine forall₂_congr fun pre e => imp_congr_right fun _ => ?_
  refine imp_congr_right fun _ => imp_congr_right fun hne => forall_congr' fun guid => ?_
  cases hlast : lastRecord guid pre with
  | none =>
      have hexec := endpoint_exec env ts cfg pre guid
      rw [hlast] at hexec
      have hnone : (exec env ts cfg pre).endpoints[guid]? = none := hexec
      simp [hnone]
  | some endpointInfo =>
      obtain ⟨active, hspec⟩ := flagSpec_exec env ts cfg pre guid endpointInfo hlast
      simp only [hspec.entry_eq, Option.some.injEq, forall_eq']
      constructor
      · intro h hu hactive
        exact h (by rw [EndpointInfoData.setActive_active, hspec.of_unrefreshed hu, hactive])
      · intro h hactive
        by_cases hu : Unrefreshed env ts cfg guid pre
        · exact h hu ((hspec.of_unrefreshed hu).symm.trans hactive)
        · have hpass := (Controller.endpointActive_iff env _ _).mp
            ((hspec.of_refreshed hu).symm.trans hactive)
          rcases hpass with hempty | hmatch
          · exact absurd hempty hne
          · exact hmatch

/-- The filter set at start-up is not applied to a writer that is discovered later. -/
theorem not_listingFiltered_startup :
    ¬ EachStep (ListingFiltered literal keyedType
        (withPartitions ((∅ : ExtTreeSet String).insert "A")))
      [.newEndpointInfo (writerRecord ⟨1, 2⟩ "B" true), .input .datawriter ["writers"]] := by
  intro h
  have hmatch := h [.newEndpointInfo (writerRecord ⟨1, 2⟩ "B" true)]
    (.input .datawriter ["writers"]) (List.prefix_refl _) ⟨rfl, _, _, rfl, .inl rfl⟩ (by decide)
    ⟨1, 2⟩ (writerRecord ⟨1, 2⟩ "B" true) rfl rfl
  have hpass := (Controller.endpointActive_iff literal _ _).mpr (.inr hmatch)
  exact absurd hpass (by decide)

end FastDdsSpy.Spy
