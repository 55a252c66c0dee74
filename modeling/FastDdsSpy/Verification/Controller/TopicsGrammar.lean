import FastDdsSpy.Verification.ModelParser.TypeIdl
import FastDdsSpy.Verification.System.KeyFields
import Mathlib.Logic.Basic

/-! # The grammar of `topics_command_`

Every branch of the command that is taken to its end shows an error or a result. The
arguments without a branch and a wrong last argument fall through to the display of the
document, which is still empty. -/

namespace FastDdsSpy

open Std ModelParser

variable {τ : Type*} {env : External} {c : Controller τ}

/-! ## What is shown -/

def Output.isError : Output → Bool
  | .error _ => true
  | _ => false

/-- The result of a query. A document that no query has filled is shown as well, and it is
taken for a result or not. -/
def Output.isResult (countsEmpty : Bool) : Output → Bool
  | .error _ => false
  | .yaml .null => countsEmpty
  | _ => true

theorem isResult_yaml {countsEmpty : Bool} {yml : Yaml} (h : yml ≠ .null) :
    (Output.yaml yml).isResult countsEmpty = true := by
  cases yml with
  | null => exact absurd rfl h
  | _ => rfl

/-- A single error message and no result. -/
def ShowsError (countsEmpty : Bool) (outputs : List Output) : Prop :=
  outputs.countP Output.isError = 1 ∧ outputs.countP (Output.isResult countsEmpty) = 0

/-- A single result and no error. -/
def ShowsResult (countsEmpty : Bool) (outputs : List Output) : Prop :=
  outputs.countP Output.isError = 0 ∧ outputs.countP (Output.isResult countsEmpty) = 1

/-- The arguments of the topics command after the command word. -/
inductive TopicsGrammar : List String → Prop
  | all : TopicsGrammar []
  | verbosity {word : String} (h : Controller.verboseArgument word ∨
      Controller.verboseVerboseArgument word) : TopicsGrammar [word]
  | name (name : String) : TopicsGrammar [name]
  | nameVerbosity (name : String) {word : String} (h : Controller.verboseArgument word ∨
      Controller.verboseVerboseArgument word) : TopicsGrammar [name, word]
  | nameIdl (name : String) {word : String} (h : Controller.idlArgument word) :
      TopicsGrammar [name, word]
  | nameKeys (name : String) {word : String} (h : Controller.keysArgument word) :
      TopicsGrammar [name, word]
  | nameKeysVerbose (name : String) {word last : String} (h : Controller.keysArgument word)
      (hlast : Controller.verboseArgument last) : TopicsGrammar [name, word, last]

namespace Controller

/-- The outputs answer these arguments by the grammar: with one error or one result, and with
an error outside the grammar. -/
structure AnswersByGrammar (countsEmpty : Bool) (arguments : List String)
    (outputs : List Output) : Prop where
  once : Xor (ShowsError countsEmpty outputs) (ShowsResult countsEmpty outputs)
  refused : ¬ TopicsGrammar arguments → ∃ text, .error text ∈ outputs

/-- The command has a branch for these arguments. -/
def hasBranch : List String → Bool
  | [] | [_] | [_, _] => true
  | [_, word, _] => keysArgument word
  | _ => false

/-- The branch ends with an empty document: the IDL query has something to say, or the last
argument is refused after the keys query has found something. -/
def leavesEmpty (env : External) (c : Controller τ) : List String → Bool
  | [name, word] =>
      idlArgument word && !(getTopics env c.model (topicFilter name)).isEmpty
  | [name, word, last] => keysArgument word && !verboseArgument last &&
      c.model.isAnyTopicTypeDiscovered (getTopics env c.model (topicFilter name))
  | _ => false

/-- All that the command can show. -/
inductive TopicsOutcome (env : External) (c : Controller τ) (arguments : List String) :
    List Output → Prop
  | refused (text : String) (hbranch : hasBranch arguments = true)
      (hfilled : leavesEmpty env c arguments = false) : TopicsOutcome env c arguments [.error text]
  | answered {yml : Yaml} (hyml : yml ≠ .null) (hbranch : hasBranch arguments = true)
      (hfilled : leavesEmpty env c arguments = false) (hin : TopicsGrammar arguments) :
      TopicsOutcome env c arguments [.yaml yml]
  | idl (data : String) (hbranch : hasBranch arguments = true)
      (hempty : leavesEmpty env c arguments = true) (hin : TopicsGrammar arguments) :
      TopicsOutcome env c arguments [.text data, .yaml .null]
  | lastRefused (text : String) (hbranch : hasBranch arguments = true)
      (hempty : leavesEmpty env c arguments = true) :
      TopicsOutcome env c arguments [.error text, .yaml .null]
  | unanswered (hbranch : hasBranch arguments = false) (hout : ¬ TopicsGrammar arguments) :
      TopicsOutcome env c arguments [.yaml .null]

/-! ## The branches -/

theorem showUnlessEmpty_outcome {α : Type*} {arguments : List String} (name : String)
    (data : List α) {yml : Yaml} (hyml : yml ≠ .null) (hbranch : hasBranch arguments = true)
    (hfilled : leavesEmpty env c arguments = false) (hin : TopicsGrammar arguments) :
    TopicsOutcome env c arguments (showUnlessEmpty name data yml) := by
  cases hdata : data.isEmpty with
  | true =>
      rw [showUnlessEmpty, hdata]
      exact .refused _ hbranch hfilled
  | false =>
      rw [showUnlessEmpty, hdata]
      exact .answered hyml hbranch hfilled hin

theorem topicsCommand_word (c : Controller τ) (command word : String) :
    TopicsOutcome env c [word] (c.topicsCommand env [command, word]) := by
  by_cases hv : verboseArgument word = true
  · simp only [topicsCommand, hv, if_true]
    exact .answered nofun rfl rfl (.verbosity (.inl hv))
  · by_cases hvv : verboseVerboseArgument word = true
    · simp only [topicsCommand, hv, hvv, if_true, if_false, Bool.false_eq_true]
      exact .answered nofun rfl rfl (.verbosity (.inr hvv))
    · simp only [topicsCommand, hv, hvv, if_false, Bool.false_eq_true]
      exact showUnlessEmpty_outcome word _ nofun rfl rfl (.name word)

theorem topicsCommand_idl (c : Controller τ) (command name : String) :
    TopicsOutcome env c [name, "idl"] (c.topicsCommand env [command, name, "idl"]) := by
  have hcommand : c.topicsCommand env [command, name, "idl"] =
      if (getTopics env c.model (topicFilter name)).isEmpty then
        [.error ("<" ++ name ++ "> does not match any topic in the DDS network.")]
      else [.text (topicsTypeIdl env c.model (topicFilter name)), .yaml .null] := by
    rw [← isEmpty_topicsTypeIdl]
    rfl
  rw [hcommand]
  cases hempty : (getTopics env c.model (topicFilter name)).isEmpty with
  | true => exact .refused _ rfl (by simp [leavesEmpty, hempty])
  | false => exact .idl _ rfl (by simp [leavesEmpty, hempty, idlArgument]) (.nameIdl name rfl)

theorem topicsCommand_option (c : Controller τ) (command name word : String) :
    TopicsOutcome env c [name, word] (c.topicsCommand env [command, name, word]) := by
  by_cases hidl : idlArgument word = true
  · obtain rfl : word = "idl" := beq_iff_eq.mp hidl
    exact topicsCommand_idl c command name
  · have hfilled : leavesEmpty env c [name, word] = false := by
      simp [leavesEmpty, hidl]
    by_cases hv : verboseArgument word = true
    · simp only [topicsCommand, hv, if_true]
      exact showUnlessEmpty_outcome name _ nofun rfl hfilled (.nameVerbosity name (.inl hv))
    · by_cases hvv : verboseVerboseArgument word = true
      · simp only [topicsCommand, hv, hvv, if_true, if_false, Bool.false_eq_true]
        exact showUnlessEmpty_outcome name _ nofun rfl hfilled (.nameVerbosity name (.inr hvv))
      · simp only [topicsCommand, hv, hvv, hidl, if_false, Bool.false_eq_true]
        by_cases hkeys : keysArgument word = true
        · rw [if_pos hkeys]
          split_ifs
          · exact .refused _ rfl hfilled
          · exact .answered nofun rfl hfilled (.nameKeys name hkeys)
        · rw [if_neg hkeys]
          exact .refused _ rfl hfilled

theorem not_topicsGrammar_of_not_hasBranch {arguments : List String}
    (h : hasBranch arguments = false) : ¬ TopicsGrammar arguments := by
  intro hin
  cases hin with
  | nameKeysVerbose name hkeys hlast => simp [hasBranch, hkeys] at h
  | _ => simp [hasBranch] at h

theorem topicsCommand_last (c : Controller τ) (command name word last : String) :
    TopicsOutcome env c [name, word, last]
      (c.topicsCommand env [command, name, word, last]) := by
  by_cases hkeys : keysArgument word = true
  · simp only [topicsCommand, hkeys, if_true, Spy.isEmpty_topicsKeys]
    cases hany : c.model.isAnyTopicTypeDiscovered (getTopics env c.model (topicFilter name)) with
    | false => exact .refused _ hkeys (by simp [leavesEmpty, hany])
    | true =>
        by_cases hlast : verboseArgument last = true
        · simp only [hlast, if_true, if_false, Bool.not_true, Bool.false_eq_true]
          exact .answered nofun hkeys (by simp [leavesEmpty, hlast])
            (.nameKeysVerbose name hkeys hlast)
        · simp only [hlast, if_false, Bool.not_true, Bool.false_eq_true]
          exact .lastRefused _ hkeys (by simp [leavesEmpty, hkeys, hlast, hany])
  · have hbranch : hasBranch [name, word, last] = false := by
      simpa [hasBranch] using hkeys
    simp only [topicsCommand, hkeys, if_false, Bool.false_eq_true]
    exact .unanswered hbranch (not_topicsGrammar_of_not_hasBranch hbranch)

/-- The outcome for arguments of any number. -/
theorem topicsCommand_outcome (env : External) (c : Controller τ) (command : String)
    (arguments : List String) :
    TopicsOutcome env c arguments (c.topicsCommand env (command :: arguments)) := by
  match arguments with
  | [] => exact .answered nofun rfl rfl .all
  | [word] => exact topicsCommand_word c command word
  | [name, word] => exact topicsCommand_option c command name word
  | [name, word, last] => exact topicsCommand_last c command name word last
  | _ :: _ :: _ :: _ :: _ => exact .unanswered rfl (not_topicsGrammar_of_not_hasBranch rfl)

/-! ## The grammar -/

section Answers

variable {countsEmpty : Bool} {arguments : List String} {outputs : List Output}

theorem not_showsResult_of_showsError (h : ShowsError countsEmpty outputs) :
    ¬ ShowsResult countsEmpty outputs := by
  intro h'
  exact absurd (h.1.symm.trans h'.1) one_ne_zero

theorem AnswersByGrammar.of_error {text : String} (h : ShowsError countsEmpty outputs)
    (hmem : .error text ∈ outputs) : AnswersByGrammar countsEmpty arguments outputs :=
  ⟨.inl ⟨h, not_showsResult_of_showsError h⟩, fun _ => ⟨text, hmem⟩⟩

theorem AnswersByGrammar.of_result (h : ShowsResult countsEmpty outputs)
    (hin : TopicsGrammar arguments) : AnswersByGrammar countsEmpty arguments outputs :=
  ⟨.inr ⟨h, fun h' => not_showsResult_of_showsError h' h⟩, fun hout => absurd hin hout⟩

theorem AnswersByGrammar.error_or_result (h : AnswersByGrammar countsEmpty arguments outputs) :
    ShowsError countsEmpty outputs ∨ ShowsResult countsEmpty outputs :=
  h.once.imp And.left And.left

/-- Which outcomes answer by the grammar. -/
theorem TopicsOutcome.answersByGrammar_iff (h : TopicsOutcome env c arguments outputs) :
    AnswersByGrammar countsEmpty arguments outputs ↔
      hasBranch arguments = true ∧ (countsEmpty && leavesEmpty env c arguments) = false := by
  cases h with
  | refused text hbranch hfilled =>
      refine iff_of_true ?_ ⟨hbranch, by simp [hfilled]⟩
      exact .of_error ⟨rfl, rfl⟩ (List.mem_singleton.mpr rfl)
  | answered hyml hbranch hfilled hin =>
      refine iff_of_true (.of_result ⟨rfl, ?_⟩ hin) ⟨hbranch, by simp [hfilled]⟩
      exact List.countP_singleton.trans (if_pos (isResult_yaml hyml))
  | idl data hbranch hempty hin =>
      cases countsEmpty with
      | false => exact iff_of_true (.of_result ⟨rfl, rfl⟩ hin) ⟨hbranch, rfl⟩
      | true =>
          refine iff_of_false (fun hanswers => ?_) (by simp [hempty])
          -- the text and the empty document are two results
          rcases hanswers.error_or_result with herror | hresult
          · exact absurd herror.1 (by simp [Output.isError])
          · have htwo : [Output.text data, .yaml .null].countP (Output.isResult true) = 2 := rfl
            exact absurd (htwo.symm.trans hresult.2) (by decide)
  | lastRefused text hbranch hempty =>
      cases countsEmpty with
      | false => exact iff_of_true (.of_error ⟨rfl, rfl⟩ List.mem_cons_self) ⟨hbranch, rfl⟩
      | true =>
          refine iff_of_false (fun hanswers => ?_) (by simp [hempty])
          -- the error comes with the empty document
          rcases hanswers.error_or_result with herror | hresult
          · exact absurd herror.2 (by simp [Output.isResult])
          · exact absurd hresult.1 (by simp [Output.isError])
  | unanswered hbranch hout =>
      refine iff_of_false (fun hanswers => ?_) (by simp [hbranch])
      obtain ⟨text, htext⟩ := hanswers.refused hout
      simp at htext

end Answers

/-- The topics command answers by its grammar exactly when it has a branch for the arguments
and, if an empty document counts as a result, the branch does not leave it empty. -/
theorem topicsCommand_answersByGrammar_iff (countsEmpty : Bool) (env : External)
    (c : Controller τ) (command : String) (arguments : List String) :
    AnswersByGrammar countsEmpty arguments (c.topicsCommand env (command :: arguments)) ↔
      hasBranch arguments = true ∧ (countsEmpty && leavesEmpty env c arguments) = false :=
  (topicsCommand_outcome env c command arguments).answersByGrammar_iff

/-- Three arguments without a keys word are outside the grammar and get no error. -/
theorem not_answersByGrammar_withoutKeys : ¬ ∃ countsEmpty,
    AnswersByGrammar countsEmpty ["topic", "v", "v"]
      ((start (withPartitions ∅) : Controller Unit).topicsCommand literal
        ["topics", "topic", "v", "v"]) := by
  intro h
  obtain ⟨_, hanswers⟩ := h
  obtain ⟨text, htext⟩ := hanswers.refused (not_topicsGrammar_of_not_hasBranch rfl)
  have hshown : (start (withPartitions ∅) : Controller Unit).topicsCommand literal
      ["topics", "topic", "v", "v"] = [.yaml .null] := rfl
  simp [hshown] at htext

end Controller

end FastDdsSpy
