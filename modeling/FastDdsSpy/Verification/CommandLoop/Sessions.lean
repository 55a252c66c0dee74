import FastDdsSpy.Library.Channels
import FastDdsSpy.Model.CommandLoop
import FastDdsSpy.Verification.DataStreamer.Delivery
import FastDdsSpy.Verification.ModelParser.TypeIdl
import FastDdsSpy.Verification.System.Steps

/-! # Sessions of the command line

What the user has asked for is a mode: to print no data, those of a topic or all. The lines of
input move the mode, and the tool writes what the mode stands for. -/

namespace FastDdsSpy.Tool

open Std PastTime DataStreamer ModelParser
open StreamThreads (Mode InMode)

variable {τ π δ : Type*} (env : External) (ts : TypeSupport τ π δ) (cfg : Configuration)

/-! ## Words -/

section Words

variable {α β : Type*} [DecidableEq α]

end Words

/-- What has been asked for, and whether the tool still reads. -/
structure Session where
  mode : Mode StreamCallback
  running : Bool

/-- Some endpoint with a matching topic is there, and the type of its topic is registered. -/
def Printable (m : SpyModel τ StreamCallback) (filterTopic : WildcardDdsFilterTopic) : Prop :=
  ∃ guid entry, ActiveMatch env m filterTopic guid entry ∧
    entry.info.topic.typeName ∈ m.typesDiscovered

open Classical in
/-- What a print command with these words asks for. -/
noncomputable def requested (m : SpyModel τ StreamCallback) :
    List String → Mode StreamCallback
  | _ :: argument :: options =>
      if Controller.allArgument argument then .all .dataStreamCallbackVerbose
      else if Printable env m (Controller.topicFilter argument) then
        .topic (Controller.topicFilter argument) (Controller.printCallback options)
      else .off
  | _ => .off

/-- A line ends a mode that prints; at the prompt it may start one, or end the tool. -/
noncomputable def Session.readLine (m : SpyModel τ StreamCallback) (session : Session)
    (arguments : List String) : Session :=
  match session.mode with
  | .off =>
      match parseAsCommand arguments with
      | .command .exit => { session with running := false }
      | .command .print => { session with mode := requested env m arguments }
      | _ => session
  | _ => { session with mode := .off }

noncomputable def Session.step (m : SpyModel τ StreamCallback) (session : Session) :
    ToolEvent τ π → Session
  | .line arguments => if session.running then session.readLine env m arguments else session
  | _ => session

/-- The session after a run of the tool. -/
noncomputable def session (es : List (ToolEvent τ π)) : Session :=
  (run (fun (s : Tool τ × Session) e =>
    ((step env ts s.1 e).1, s.2.step env s.1.spy.controller.model e))
    (start cfg, ⟨.off, true⟩) es).2

/-- The tool is in the state that the session stands for. -/
structure InSession (env : External) (t : Tool τ) (session : Session) : Prop where
  running_eq : t.running = session.running
  printing_iff : t.spy.printing = true ↔ session.mode ≠ .off
  inMode : InMode env t.spy.controller.model.toDataStreamer session.mode

/-! ## Printing -/

variable {env ts cfg}

theorem isAny_iff {m : SpyModel τ StreamCallback} {filterTopic : WildcardDdsFilterTopic} :
    m.isAnyTopicTypeDiscovered (getTopics env m filterTopic) = true ↔
      Printable env m filterTopic := by
  rw [isAnyTopicTypeDiscovered, List.any_eq_true]
  constructor
  · intro h
    obtain ⟨topic, htopic, hcontains⟩ := h
    obtain ⟨guid, entry, hmatch, hcmp⟩ := exists_activeMatch_of_listed htopic
    refine ⟨guid, entry, hmatch, ?_⟩
    rwa [(DdsTopic.cmp_eq_iff.mp hcmp).2, ← ExtTreeMap.contains_iff_mem]
  · intro h
    obtain ⟨guid, entry, hmatch, hmem⟩ := h
    obtain ⟨topic, htopic, hcmp⟩ := exists_listed_of_activeMatch hmatch
    refine ⟨topic, htopic, ?_⟩
    rwa [← (DdsTopic.cmp_eq_iff.mp hcmp).2, ExtTreeMap.contains_iff_mem]

theorem not_printable_of_isEmpty {m : SpyModel τ StreamCallback}
    {filterTopic : WildcardDdsFilterTopic} (h : (getTopics env m filterTopic).isEmpty = true) :
    ¬ Printable env m filterTopic := by
  intro hprintable
  obtain ⟨guid, entry, hmatch, -⟩ := hprintable
  exact isEmpty_getTopics_iff.mp h guid entry hmatch

/-- Where a print command leaves the tool: in the mode that was asked for, waiting for the user
if there is anything to print. -/
structure Printed (env : External) (m : SpyModel τ StreamCallback) (arguments : List String)
    (result : Controller τ × List Output × Bool) : Prop where
  inMode : InMode env result.1.model.toDataStreamer (requested env m arguments)
  waits_iff : result.2.2 = true ↔ requested env m arguments ≠ .off

theorem printed_printCommand {c : Controller τ}
    (h : InMode env c.model.toDataStreamer .off) (arguments : List String) :
    Printed env c.model arguments (c.printCommand env arguments) := by
  match arguments with
  | [] | [_] => exact ⟨h, by simp [Controller.printCommand, requested]⟩
  | command :: argument :: options =>
      by_cases hall : Controller.allArgument argument = true
      · rw [Controller.printCommand, if_pos hall]
        exact ⟨by simpa [requested, hall] using ⟨rfl, fun topic => rfl⟩, by simp [requested, hall]⟩
      · by_cases hprintable : Printable env c.model (Controller.topicFilter argument)
        · have hany := isAny_iff.mpr hprintable
          have hempty :
              ¬ (getTopics env c.model (Controller.topicFilter argument)).isEmpty = true :=
            fun hempty => not_printable_of_isEmpty hempty hprintable
          refine ⟨?_, ?_⟩
          · simpa [Controller.printCommand, requested, hall, hprintable, hempty, hany]
              using ⟨rfl, fun topic => rfl⟩
          · simp [Controller.printCommand, requested, hall, hprintable, hempty, hany]
        · have hany : ¬ c.model.isAnyTopicTypeDiscovered (getTopics env c.model
              (Controller.topicFilter argument)) = true :=
            fun hany => hprintable (isAny_iff.mp hany)
          have hsame : c.printCommand env (command :: argument :: options) =
              (c, (c.printCommand env (command :: argument :: options)).2.1, false) := by
            simp only [Controller.printCommand, hall, Bool.false_eq_true, if_false]
            split
            · rfl
            · simp [hany]
          rw [hsame]
          exact ⟨by simpa [requested, hall, hprintable] using h,
            by simp [requested, hall, hprintable]⟩

/-- Every other command leaves the streamer alone. -/
theorem runCommand_quiet (env : External) (s : Spy τ) {command : CommandValue}
    (h : command ≠ .print) (arguments : List String) :
    (s.runCommand env command arguments).1.controller.model.toDataStreamer =
        s.controller.model.toDataStreamer ∧
      (s.runCommand env command arguments).1.printing = s.printing := by
  cases command with
  | print => exact absurd rfl h
  | filter =>
      refine ⟨?_, rfl⟩
      have hfst := Controller.filterCommand_fst env s.controller arguments
      cases haction : s.controller.filterAction arguments with
      | none =>
          rw [haction] at hfst
          simp only [Spy.runCommand]
          rw [hfst]
      | some action =>
          rw [haction] at hfst
          simp only [Spy.runCommand]
          rw [hfst]
          exact (Controller.perform_spec env s.controller action).streamer_eq
  | _ => exact ⟨rfl, rfl⟩

/-! ## The tool follows its session -/

variable {t : Tool τ} {s : Session}

theorem not_printing_of_off (h : InSession env t s) (hmode : s.mode = .off) :
    t.spy.printing = false := by
  rw [← Bool.not_eq_true, h.printing_iff, hmode]
  simp

theorem readLine_of_printing (h : t.spy.printing = true) (arguments : List String) :
    (t.readLine env arguments : Tool τ × List (Shown τ π)) =
      (⟨⟨t.spy.controller.stopPrinting, false⟩, true⟩, []) := by
  rw [Tool.readLine, if_pos h]

theorem readLine_of_not_printing (h : t.spy.printing = false) (arguments : List String) :
    (t.readLine env arguments : Tool τ × List (Shown τ π)) =
      (⟨(runCommand env t.spy (parseAsCommand arguments) arguments).1,
        parseAsCommand arguments ≠ .command .exit⟩,
        (runCommand env t.spy (parseAsCommand arguments) arguments).2.map .output) := by
  rw [Tool.readLine, if_neg (by simp [h])]

/-- A command that is neither a print command nor an exit leaves the session as it is. -/
theorem InSession.quiet (h : InSession env t s) (hrunning : t.running = true)
    {value : CommandValue} (hprint : value ≠ .print) (hexit : value ≠ .exit)
    (arguments : List String) :
    InSession env ⟨(runCommand env t.spy (.command value) arguments).1,
      ParsedCommand.command value ≠ .command .exit⟩ s := by
  obtain ⟨hstreamer, hstill⟩ := runCommand_quiet env t.spy hprint arguments
  refine ⟨by simp [← h.running_eq, hrunning, hexit], ?_, ?_⟩
  · rw [← h.printing_iff]
    exact Bool.coe_iff_coe.mpr hstill
  · have hinMode := h.inMode
    rw [← hstreamer] at hinMode
    exact hinMode

/-- A line that is read at the prompt. -/
theorem InSession.prompt (h : InSession env t s) (hrunning : t.running = true)
    (hmode : s.mode = .off) (arguments : List String) :
    InSession env (t.readLine env arguments : Tool τ × List (Shown τ π)).1
      (s.readLine env t.spy.controller.model arguments) := by
  have hinMode : InMode env t.spy.controller.model.toDataStreamer .off := hmode ▸ h.inMode
  rw [readLine_of_not_printing (not_printing_of_off h hmode), Session.readLine, hmode]
  cases hparse : parseAsCommand arguments with
  | emptyCommand =>
      refine ⟨by simp [← h.running_eq, hrunning], ?_, ?_⟩
      · exact h.printing_iff
      · exact h.inMode
  | command value =>
      cases value with
      | print =>
          have hprinted := printed_printCommand hinMode arguments
          exact ⟨by simp [← h.running_eq, hrunning], hprinted.waits_iff, hprinted.inMode⟩
      | exit =>
          have hprinting := not_printing_of_off h hmode
          exact ⟨by simp, by simp [runCommand, Spy.runCommand, hprinting], hinMode⟩
      | _ => exact h.quiet hrunning (by simp) (by simp) arguments

/-- A line that is read while data is printed. -/
theorem InSession.stop (h : InSession env t s) (hrunning : t.running = true)
    (hmode : s.mode ≠ .off) (arguments : List String) :
    InSession env (t.readLine env arguments : Tool τ × List (Shown τ π)).1
      (s.readLine env t.spy.controller.model arguments) := by
  rw [readLine_of_printing (h.printing_iff.mpr hmode)]
  have hline : s.readLine env t.spy.controller.model arguments = { s with mode := .off } := by
    rw [Session.readLine]
    cases hsession : s.mode with
    | off => exact absurd hsession hmode
    | _ => rfl
  rw [hline]
  exact ⟨by simp [← h.running_eq, hrunning], by simp, ⟨rfl, fun topic => rfl⟩⟩

theorem inMode_of_fields {ds ds' : DataStreamer τ StreamCallback} {mode : Mode StreamCallback}
    (h : InMode env ds mode) (hcallback : ds'.callback = ds.callback)
    (hactivated : ds'.activated = ds.activated) (hall : ds'.activatedAll = ds.activatedAll)
    (htopic : ds'.activatedTopic = ds.activatedTopic) : InMode env ds' mode := by
  refine ⟨hcallback.trans h.callback_eq, fun topic => ?_⟩
  rw [hactivated, hall, htopic, h.selects_eq]

theorem step_of_not_running (h : t.running = false) (e : ToolEvent τ π) :
    Tool.step env ts t e = (t, []) := by
  simp [Tool.step, h]

/-- One event keeps the tool in its session. -/
theorem InSession.step (h : InSession env t s) (e : ToolEvent τ π) :
    InSession env (step env ts t e).1 (s.step env t.spy.controller.model e) := by
  cases hrunning : t.running with
  | false =>
      have hsession : s.step env t.spy.controller.model e = s := by
        rw [h.running_eq] at hrunning
        cases e with
        | line arguments => simp [Session.step, hrunning]
        | _ => rfl
      rw [step_of_not_running hrunning, hsession]
      exact h
  | true =>
      have hsession : s.running = true := h.running_eq ▸ hrunning
      cases e with
      | newParticipantInfo info =>
          simp only [Tool.step, hrunning, if_true]
          exact ⟨hsession.symm, h.printing_iff, h.inMode⟩
      | newEndpointInfo endpointInfo =>
          simp only [Tool.step, hrunning, if_true]
          refine ⟨hsession.symm, h.printing_iff, inMode_of_fields h.inMode ?_ ?_ ?_ ?_⟩
          all_goals
            by_cases hw : endpointInfo.info.isWriter = true <;>
              simp [Spy.step, Spy.setModel, SpyModel.newEndpointInfo, hw, onWriterDiscovered]
      | addSchema dynamicType =>
          simp only [Tool.step, hrunning, if_true]
          exact ⟨hsession.symm, h.printing_iff, inMode_of_fields h.inMode rfl rfl rfl rfl⟩
      | addData topic data =>
          obtain ⟨instanceCache, hfst⟩ :=
            addData_fst env ts t.spy.controller.model.toDataStreamer topic data
          simp only [Tool.step, hrunning, if_true]
          refine ⟨hsession.symm, h.printing_iff, ?_⟩
          simp only [Spy.step, Spy.setModel, hfst]
          exact inMode_of_fields h.inMode rfl rfl rfl rfl
      | line arguments =>
          simp only [Tool.step, hrunning, if_true]
          rw [Session.step, if_pos hsession]
          by_cases hmode : s.mode = .off
          · exact h.prompt hrunning hmode arguments
          · exact h.stop hrunning hmode arguments

/-! ## Runs -/

theorem exec_concat (es : List (ToolEvent τ π)) (e : ToolEvent τ π) :
    exec env ts cfg (es ++ [e]) = (Tool.step env ts (exec env ts cfg es) e).1 := by
  simp [exec]

/-- The event that the model of the running tool has for this one. An empty command changes as
little as `help`. -/
def toEvent : ToolEvent τ π → Event τ π
  | .newParticipantInfo info => .newParticipantInfo info
  | .newEndpointInfo endpointInfo => .newEndpointInfo endpointInfo
  | .addSchema dynamicType => .addSchema dynamicType
  | .addData topic data => .addData topic data
  | .line arguments =>
      match parseAsCommand arguments with
      | .emptyCommand => .input .help arguments
      | .command value => .input value arguments

def handled (t : Tool τ) (e : ToolEvent τ π) : Option (Event τ π) :=
  if t.running then some (toEvent e) else none

theorem spy_readLine (env : External) (ts : TypeSupport τ π δ) (t : Tool τ)
    (arguments : List String) :
    (t.readLine env arguments : Tool τ × List (Shown τ π)).1.spy =
      t.spy.step env ts (toEvent (.line arguments)) := by
  cases hprinting : t.spy.printing with
  | true =>
      rw [readLine_of_printing hprinting, toEvent]
      cases parseAsCommand arguments <;> simp [Spy.step, Spy.readInput, hprinting]
  | false =>
      rw [readLine_of_not_printing hprinting, toEvent]
      cases parseAsCommand arguments <;>
        simp [Spy.step, Spy.readInput, hprinting, Tool.runCommand, Spy.runCommand]

theorem spy_step (t : Tool τ) (e : ToolEvent τ π) :
    (Tool.step env ts t e).1.spy = (handled t e).elim t.spy (t.spy.step env ts) := by
  cases hrunning : t.running with
  | false => simp [step_of_not_running hrunning, handled, hrunning]
  | true =>
      cases e with
      | line arguments =>
          simp only [Tool.step, handled, hrunning, if_true]
          exact spy_readLine env ts t arguments
      | _ => simp only [Tool.step, handled, hrunning, if_true]; rfl

theorem spy_exec (env : External) (ts : TypeSupport τ π δ) (cfg : Configuration)
    (es : List (ToolEvent τ π)) : (exec env ts cfg es).spy = Spy.exec env ts cfg
      (emitted (fun t e => (Tool.step env ts t e).1) handled (start cfg) es) :=
  run_refines Tool.spy spy_step (start cfg) es

/-- The type of this name that an event registers. -/
def registered (ts : TypeSupport τ π δ) (typeName : String) : ToolEvent τ π → Option τ
  | .addSchema dynamicType => if ts.getName dynamicType = typeName then some dynamicType else none
  | _ => none

/-- The type that an event leaves under this name. -/
theorem typesDiscovered_step (hrunning : t.running = true) (e : ToolEvent τ π) (typeName : String) :
    (Tool.step env ts t e).1.spy.controller.model.typesDiscovered[typeName]? =
      (registered ts typeName e).or t.spy.controller.model.typesDiscovered[typeName]? := by
  cases e with
  | newParticipantInfo info => simp only [Tool.step, hrunning, if_true]; rfl
  | newEndpointInfo endpointInfo =>
      simp only [Tool.step, hrunning, if_true]
      by_cases hw : endpointInfo.info.isWriter = true <;>
        simp [Spy.step, Spy.setModel, SpyModel.newEndpointInfo, hw, onWriterDiscovered, registered]
  | addSchema dynamicType =>
      simp only [Tool.step, hrunning, if_true]
      by_cases hn : ts.getName dynamicType = typeName
      · simp [Spy.step, Spy.setModel, addSchema, registered, hn]
      · simp [Spy.step, Spy.setModel, addSchema, registered, ExtTreeMap.getElem?_insert, hn]
  | addData topic data =>
      obtain ⟨instanceCache, hfst⟩ :=
        addData_fst env ts t.spy.controller.model.toDataStreamer topic data
      simp only [Tool.step, hrunning, if_true, Spy.step, Spy.setModel, hfst]
      rfl
  | line arguments =>
      simp only [Tool.step, hrunning, if_true]
      have hsame : Spy.SameData t.spy.controller.model.toDataStreamer
          (t.readLine env arguments :
            Tool τ × List (Shown τ π)).1.spy.controller.model.toDataStreamer := by
        cases hprinting : t.spy.printing with
        | true =>
            rw [readLine_of_printing hprinting]
            exact ⟨rfl, rfl, rfl⟩
        | false =>
            rw [readLine_of_not_printing hprinting]
            cases parseAsCommand arguments with
            | emptyCommand => exact .refl _
            | command value =>
                have hinput := Spy.sameData_input env ts t.spy value arguments
                simpa [Spy.step, Spy.readInput, hprinting, Tool.runCommand] using hinput
      rw [hsame.typesDiscovered_eq]
      rfl

theorem running_of_step {e : ToolEvent τ π} (h : (Tool.step env ts t e).1.running = true) :
    t.running = true := by
  cases hrunning : t.running with
  | true => rfl
  | false => rw [step_of_not_running hrunning, hrunning] at h; exact h

theorem typesDiscovered_exec (es : List (ToolEvent τ π)) (typeName : String)
    (h : (exec env ts cfg es).running = true) :
    (exec env ts cfg es).spy.controller.model.typesDiscovered[typeName]? =
      latest (registered ts typeName) es := by
  induction es using List.reverseRecOn with
  | nil => simp [exec, start, SpyModel.empty, DataStreamer.empty]
  | append_singleton es e ih =>
      rw [exec_concat] at h ⊢
      have hrunning := running_of_step h
      rw [typesDiscovered_step hrunning, latest_concat, ih hrunning]

end FastDdsSpy.Tool
