import FastDdsSpy.Verification.ModelParser.ParticipantCounts
import FastDdsSpy.Verification.System.DatabaseKeys

/-! # The participant view over runs

A departed endpoint stays in the database, and the verbose view of its participant goes on
counting it. -/

namespace FastDdsSpy

open Std PastTime ModelParser

variable {τ π δ : Type*}

theorem Controller.ros2Types_perform (env : External) (c : Controller τ) (action : FilterAction) :
    (c.perform env action).model.ros2Types = c.model.ros2Types := by
  cases action with
  | clearAll =>
      exact congrArg (fun m => m.ros2Types)
        (sameButTopics_updateTopics (updatePartitions env (c.setFilters .clearAll))).model_eq
  | clearTopics =>
      exact congrArg (fun m => m.ros2Types)
        (sameButTopics_updateTopics (c.setFilters .clearTopics)).model_eq
  | setTopic | clearPartitions | addPartition | removePartition | removeTopic => rfl

namespace Spy

variable {env : External} {ts : TypeSupport τ π δ} {cfg : Configuration}

/-- Whether names are demangled is set at start-up. -/
theorem ros2Types_exec (env : External) (ts : TypeSupport τ π δ) (cfg : Configuration)
    (es : List (Event τ π)) :
    (exec env ts cfg es).controller.model.ros2Types = cfg.ros2Types := by
  apply run_induction (fun s : Spy τ => s.controller.model.ros2Types = cfg.ros2Types)
  · intro s e hs
    cases e with
    | newParticipantInfo info => exact hs
    | newEndpointInfo endpointInfo =>
        by_cases hw : endpointInfo.info.isWriter = true <;>
          simpa [step, setModel, SpyModel.newEndpointInfo, hw] using hs
    | addSchema ty => exact hs
    | addData topic data => exact hs
    | input command arguments =>
        cases ha : s.filterAction (.input command arguments : Event τ π) with
        | some action =>
            rw [controller_step_of_action env ts ha, Controller.ros2Types_perform, hs]
        | none =>
            obtain ⟨streamer, -, hcontroller⟩ := readInput_of_no_action env ha
            simp only [step]
            rw [hcontroller]
            exact hs
  · rfl

/-- In every reachable state the verbose view of the participants agrees with the endpoint
views if and only if no departed writer or reader is left under an active participant. -/
theorem participantViews_agree_iff_alive (env : External) (ts : TypeSupport τ π δ)
    {cfg : Configuration} (hros2 : cfg.ros2Types = false) (es : List (Event τ π)) :
    ParticipantsAgree env (exec env ts cfg es).controller.model ↔
      EndpointsAlive (exec env ts cfg es).controller.model :=
  participantsAgree_iff_endpointsAlive env ((ros2Types_exec env ts cfg es).trans hros2)
    (participantsKeyed_exec es)

theorem participantViews_agree_iff_alive_arrival :
    ParticipantsAgree literal (exec literal keyedType (withPartitions ∅)
        [.newParticipantInfo ⟨"spy", ⟨1, 1⟩, true⟩,
          .newEndpointInfo (writerRecord ⟨1, 2⟩ "A" true)]).controller.model ↔
      EndpointsAlive (exec literal keyedType (withPartitions ∅)
        [.newParticipantInfo ⟨"spy", ⟨1, 1⟩, true⟩,
          .newEndpointInfo (writerRecord ⟨1, 2⟩ "A" true)]).controller.model :=
  participantViews_agree_iff_alive literal keyedType rfl _

/-- A writer arrives and leaves, and its participant stays. -/
theorem not_participantsAgree_departed :
    ¬ ParticipantsAgree literal (exec literal keyedType (withPartitions ∅)
      [.newParticipantInfo ⟨"spy", ⟨1, 1⟩, true⟩,
        .newEndpointInfo (writerRecord ⟨1, 2⟩ "A" true),
        .newEndpointInfo (writerRecord ⟨1, 2⟩ "A" false)]).controller.model := by
  intro h
  have halive := (participantsAgree_iff_endpointsAlive literal (ros2Types_exec _ _ _ _)
    (participantsKeyed_exec _)).mp h
  have hentry : (exec literal keyedType (withPartitions ∅)
      [.newParticipantInfo ⟨"spy", ⟨1, 1⟩, true⟩,
        .newEndpointInfo (writerRecord ⟨1, 2⟩ "A" true),
        .newEndpointInfo (writerRecord ⟨1, 2⟩ "A" false)]).endpoints[(⟨1, 2⟩ : Guid)]? =
          some (writerRecord ⟨1, 2⟩ "A" false) := rfl
  have hactive := halive ⟨1, 1⟩ ⟨"spy", ⟨1, 1⟩, true⟩ rfl rfl .writer (by simp)
    (writerRecord ⟨1, 2⟩ "A" false) (mem_endpointsOf hentry rfl rfl)
  exact absurd hactive (by decide)

end Spy

end FastDdsSpy
