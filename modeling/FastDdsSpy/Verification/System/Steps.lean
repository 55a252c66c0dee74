import FastDdsSpy.Model.System
import FastDdsSpy.Verification.Controller.Filters
import FastDdsSpy.Verification.ModelParser.Lookups

/-! # Steps of the running tool

An event performs a filter action or leaves the filters alone; it stores a discovery
record or leaves the database alone. -/

namespace FastDdsSpy

open Std PastTime

variable {τ π δ : Type*}

/-- The discovery record of an endpoint that an event stores. -/
def Event.record : Event τ π → Option EndpointInfoData
  | .newEndpointInfo endpointInfo => some endpointInfo
  | _ => none

/-- The record of this endpoint that an event stores. -/
def Event.recordOf (guid : Guid) (e : Event τ π) : Option EndpointInfoData :=
  e.record.filter (fun endpointInfo => endpointInfo.info.guid = guid)

theorem Event.recordOf_newEndpointInfo (guid : Guid) (endpointInfo : EndpointInfoData) :
    (newEndpointInfo endpointInfo : Event τ π).recordOf guid =
      if endpointInfo.info.guid = guid then some endpointInfo else none := by
  simp [recordOf, record, Option.filter]

theorem Event.guid_of_recordOf {guid : Guid} {e : Event τ π} {endpointInfo : EndpointInfoData}
    (h : e.recordOf guid = some endpointInfo) : endpointInfo.info.guid = guid := by
  have hfilter := Option.eq_some_of_filter_eq_some h
  simpa using Option.filter_eq_some_iff.mp h |>.2

namespace Spy

variable {env : External} {ts : TypeSupport τ π δ} {cfg : Configuration}

@[simp] theorem exec_nil : exec env ts cfg ([] : List (Event τ π)) = start cfg := rfl

/-- The tool starts with empty databases. -/
@[simp] theorem model_start : (start cfg : Spy τ).controller.model = .empty cfg.ros2Types := rfl

@[simp] theorem exec_concat (es : List (Event τ π)) (e : Event τ π) :
    exec env ts cfg (es ++ [e]) = step env ts (exec env ts cfg es) e := by
  simp [exec]

/-- The endpoint database of the tool. -/
abbrev endpoints (s : Spy τ) : ExtTreeMap Guid EndpointInfoData :=
  s.controller.model.endpointDatabase

/-- The filter action that an event performs, if any. -/
def filterAction (s : Spy τ) : Event τ π → Option FilterAction
  | .input .filter arguments =>
      if s.printing then none else s.controller.filterAction arguments
  | _ => none

/-- Only a filter command that is read while nothing is printed performs an action. -/
theorem filterAction_eq_some_iff {s : Spy τ} {e : Event τ π} {action : FilterAction} :
    s.filterAction e = some action ↔ ∃ arguments, e = .input .filter arguments ∧
      s.printing = false ∧ s.controller.filterAction arguments = some action := by
  constructor
  · intro h
    cases e with
    | input command arguments =>
        cases command with
        | filter =>
            cases hp : s.printing with
            | true => simp [filterAction, hp] at h
            | false => exact ⟨arguments, rfl, rfl, by simpa [filterAction, hp] using h⟩
        | _ => simp [filterAction] at h
    | _ => simp [filterAction] at h
  · rintro ⟨arguments, rfl, hp, ha⟩
    simp [filterAction, hp, ha]

theorem controller_step_of_action (env : External) (ts : TypeSupport τ π δ) {s : Spy τ}
    {e : Event τ π} {action : FilterAction}
    (h : s.filterAction e = some action) :
    (step env ts s e).controller = s.controller.perform env action := by
  obtain ⟨arguments, rfl, hp, ha⟩ := filterAction_eq_some_iff.mp h
  have hfst := Controller.filterCommand_fst env s.controller arguments
  rw [ha] at hfst
  simpa [step, readInput, hp, runCommand] using hfst

/-- An event without a filter action: the filters stay, and the endpoint database only
changes by a record. -/
structure QuietSpec (s : Spy τ) (e : Event τ π) (s' : Spy τ) : Prop where
  backend_eq : s'.controller.backend = s.controller.backend
  configuration_eq : s'.controller.configuration = s.controller.configuration
  partitionFilterSet_eq : s'.controller.partitionFilterSet = s.controller.partitionFilterSet
  topicFilterDict_eq : s'.controller.topicFilterDict = s.controller.topicFilterDict
  endpoint_eq : ∀ guid : Guid, s'.endpoints[guid]? =
    (e.recordOf guid).or s.endpoints[guid]?

/-- Two streamers that differ at most in what they print. -/
structure SameData {κ : Type*} (ds ds' : DataStreamer τ κ) : Prop where
  rates_eq : ds'.toTopicRateCalculator = ds.toTopicRateCalculator
  typesDiscovered_eq : ds'.typesDiscovered = ds.typesDiscovered
  instanceCache_eq : ds'.instanceCache = ds.instanceCache

theorem SameData.refl {κ : Type*} (ds : DataStreamer τ κ) : SameData ds ds := ⟨rfl, rfl, rfl⟩

/-- `print_command_` only touches what is printed. -/
theorem printCommand_fst (env : External) (c : Controller τ) (arguments : List String) :
    ∃ streamer, SameData c.model.toDataStreamer streamer ∧ (c.printCommand env arguments).1 =
      { c with model := { c.model with toDataStreamer := streamer } } := by
  match arguments with
  | [] | [_] => exact ⟨c.model.toDataStreamer, .refl _, rfl⟩
  | command :: argument :: options =>
      by_cases hall : Controller.allArgument argument = true
      · exact ⟨c.model.toDataStreamer.activateAll .dataStreamCallbackVerbose, ⟨rfl, rfl, rfl⟩,
          by simp [Controller.printCommand, hall]⟩
      · by_cases hempty : (ModelParser.getTopics env c.model
            (Controller.topicFilter argument)).isEmpty = true
        · exact ⟨c.model.toDataStreamer, .refl _, by simp [Controller.printCommand, hall, hempty]⟩
        · by_cases hany : c.model.isAnyTopicTypeDiscovered (ModelParser.getTopics env c.model
              (Controller.topicFilter argument)) = true
          · exact ⟨c.model.toDataStreamer.activate (Controller.topicFilter argument)
              (Controller.printCallback options), ⟨rfl, rfl, rfl⟩,
              by simp [Controller.printCommand, hall, hempty, hany]⟩
          · exact ⟨c.model.toDataStreamer, .refl _,
              by simp [Controller.printCommand, hall, hempty, hany]⟩

theorem readInput_of_no_action (env : External) {s : Spy τ} {command : CommandValue}
    {arguments : List String}
    (h : s.filterAction (.input command arguments : Event τ π) = none) :
    ∃ streamer, SameData s.controller.model.toDataStreamer streamer ∧
      (s.readInput env command arguments).1.controller =
        { s.controller with model := { s.controller.model with toDataStreamer := streamer } } := by
  by_cases hp : s.printing = true
  · exact ⟨s.controller.model.toDataStreamer.deactivate, ⟨rfl, rfl, rfl⟩,
      by simp [readInput, hp, Controller.stopPrinting]⟩
  · cases command with
    | print =>
        obtain ⟨streamer, hsame, hs⟩ := printCommand_fst env s.controller arguments
        exact ⟨streamer, hsame, by simpa [readInput, hp, runCommand] using hs⟩
    | filter =>
        have ha : s.controller.filterAction arguments = none := by
          simpa [filterAction, hp] using h
        have hfst := Controller.filterCommand_fst env s.controller arguments
        rw [ha] at hfst
        exact ⟨s.controller.model.toDataStreamer, .refl _,
          by simpa [readInput, hp, runCommand] using hfst⟩
    | _ => exact ⟨s.controller.model.toDataStreamer, .refl _,
        by simp [readInput, hp, runCommand]⟩

theorem step_of_no_action (env : External) (ts : TypeSupport τ π δ) {s : Spy τ}
    {e : Event τ π} (h : s.filterAction e = none) :
    QuietSpec s e (step env ts s e) := by
  cases e with
  | newParticipantInfo info => exact ⟨rfl, rfl, rfl, rfl, fun guid => rfl⟩
  | newEndpointInfo endpointInfo =>
      refine ⟨rfl, rfl, rfl, rfl, fun guid => ?_⟩
      have hdb := ModelParser.endpointDatabase_newEndpointInfo s.controller.model endpointInfo
      rw [Event.recordOf_newEndpointInfo]
      by_cases hg : endpointInfo.info.guid = guid
      · simp [endpoints, step, setModel, hdb, hg]
      · simp [endpoints, step, setModel, hdb, ExtTreeMap.getElem?_insert, hg]
  | addSchema ty => exact ⟨rfl, rfl, rfl, rfl, fun guid => rfl⟩
  | addData topic data => exact ⟨rfl, rfl, rfl, rfl, fun guid => rfl⟩
  | input command arguments =>
      obtain ⟨streamer, -, hs⟩ := readInput_of_no_action env h
      simp only [step]
      exact ⟨by rw [hs], by rw [hs], by rw [hs], by rw [hs], fun guid => by rw [endpoints, hs]; rfl⟩

/-- A line of input leaves the counters, the types and the instances alone. -/
theorem sameData_input (env : External) (ts : TypeSupport τ π δ) (s : Spy τ)
    (command : CommandValue) (arguments : List String) :
    SameData s.controller.model.toDataStreamer
      (step env ts s (.input command arguments)).controller.model.toDataStreamer := by
  cases ha : s.filterAction (.input command arguments : Event τ π) with
  | some action =>
      rw [controller_step_of_action env ts ha,
        (Controller.perform_spec env s.controller action).streamer_eq]
      exact .refl _
  | none =>
      obtain ⟨streamer, hsame, hs⟩ := readInput_of_no_action env ha
      simp only [step]
      rw [hs]
      exact hsame

/-! ## The endpoint database and its history -/

/-- The entry of an endpoint after one more event. -/
theorem endpoint_step (s : Spy τ) (e : Event τ π) (guid : Guid) :
    (step env ts s e).endpoints[guid]? = match s.filterAction e with
      | some action =>
          if action.refreshes then s.endpoints[guid]?.map (fun entry : EndpointInfoData =>
            entry.setActive (Controller.endpointActive env
              (action.partitions s.controller.partitionFilterSet) entry.info))
          else s.endpoints[guid]?
      | none => (e.recordOf guid).or s.endpoints[guid]? := by
  cases ha : s.filterAction e with
  | some action =>
      have hspec := Controller.perform_spec env s.controller action
      rw [endpoints, controller_step_of_action env ts ha]
      exact hspec.endpoint_eq guid
  | none => exact (step_of_no_action env ts ha).endpoint_eq guid

theorem recordOf_of_action {s : Spy τ} {e : Event τ π} {action : FilterAction}
    (h : s.filterAction e = some action) (guid : Guid) : e.recordOf guid = none := by
  obtain ⟨arguments, rfl, -⟩ := filterAction_eq_some_iff.mp h
  rfl

/-- Nothing changes the configuration. -/
theorem configuration_exec (es : List (Event τ π)) :
    (exec env ts cfg es).controller.configuration = cfg := by
  apply run_induction (fun s : Spy τ => s.controller.configuration = cfg)
  · intro s e hs
    cases ha : s.filterAction e with
    | none => rw [(step_of_no_action env ts ha).configuration_eq, hs]
    | some action =>
        rw [controller_step_of_action env ts ha,
          (Controller.perform_spec env s.controller action).configuration_eq, hs]
  · rfl

/-- The most recent discovery record of an endpoint. -/
def lastRecord (guid : Guid) (es : List (Event τ π)) : Option EndpointInfoData :=
  latest (Event.recordOf guid) es

theorem lastRecord_concat (guid : Guid) (es : List (Event τ π)) (e : Event τ π) :
    lastRecord guid (es ++ [e]) = (e.recordOf guid).or (lastRecord guid es) :=
  latest_concat _ es e

/-- The entry of an endpoint is its last record, up to the active flag. -/
theorem endpoint_exec (env : External) (ts : TypeSupport τ π δ) (cfg : Configuration)
    (es : List (Event τ π)) (guid : Guid) :
    match lastRecord guid es with
    | some endpointInfo => ∃ active,
        (exec env ts cfg es).endpoints[guid]? = some (endpointInfo.setActive active)
    | none => (exec env ts cfg es).endpoints[guid]? = none := by
  induction es using List.reverseRecOn with
  | nil => simp [lastRecord, endpoints, SpyModel.empty]
  | append_singleton es e ih =>
      rw [lastRecord_concat, exec_concat, endpoint_step]
      cases ha : (exec env ts cfg es).filterAction e with
      | some action =>
          rw [recordOf_of_action ha, Option.none_or]
          cases hlast : lastRecord guid es with
          | none =>
              rw [hlast] at ih
              have hnone : (exec env ts cfg es).endpoints[guid]? = none := ih
              simp only [hnone]
              split <;> rfl
          | some endpointInfo =>
              rw [hlast] at ih
              obtain ⟨active, hentry⟩ := ih
              simp only [hentry]
              split
              · exact ⟨_, rfl⟩
              · exact ⟨active, rfl⟩
      | none =>
          cases hrec : e.recordOf guid with
          | none => simpa using ih
          | some endpointInfo => exact ⟨endpointInfo.info.active, rfl⟩

end Spy

end FastDdsSpy
