import FastDdsSpy.Verification.Instances
import FastDdsSpy.Verification.System.Steps

/-! # The topic filters as a finite map

A topic without a filter is not in the map. The dictionary of the controller has a second
way to say so, a topic with the empty filter: the listing passes over it, and the check of
`filter remove topic` does not. -/

namespace FastDdsSpy

open Std PastTime

/-! ## The map -/

/-- The filters that are set: no filter is empty. -/
@[ext] structure FilterMap where
  entries : ExtTreeMap String String
  nonempty : ∀ topicName filter : String, entries[topicName]? = some filter → filter ≠ ""

namespace FilterMap

/-- The part of a dictionary that is shown. -/
def ofDict (dict : ExtTreeMap String String) : FilterMap where
  entries := dict.filter (fun _ filter => filter != "")
  nonempty topicName filter h := by
    rw [ExtTreeMap.getElem?_filter'] at h
    simp only [Option.filter_eq_some_iff] at h
    simpa using h.2

def remove (m : FilterMap) (topicName : String) : FilterMap where
  entries := m.entries.erase topicName
  nonempty name filter h := by
    rw [ExtTreeMap.getElem?_erase] at h
    split at h
    · simp at h
    · exact m.nonempty name filter h

/-- Setting the empty filter removes the topic. -/
def set (m : FilterMap) (topicName filter : String) : FilterMap :=
  if hfilter : filter = "" then m.remove topicName
  else
    { entries := m.entries.insert topicName filter
      nonempty := by
        intro name filter' h
        rw [ExtTreeMap.getElem?_insert] at h
        split at h
        · exact Option.some.inj h ▸ hfilter
        · exact m.nonempty name filter' h }

def clear : FilterMap where
  entries := ∅
  nonempty topicName filter h := by simp at h

/-- The commands on the map. -/
inductive Action
  | set (topicName filter : String)
  | remove (topicName : String)
  | clear

def apply (m : FilterMap) : Action → FilterMap
  | .set topicName filter => m.set topicName filter
  | .remove topicName => m.remove topicName
  | .clear => clear

theorem getElem?_ofDict (dict : ExtTreeMap String String) (topicName : String) :
    (ofDict dict).entries[topicName]? = dict[topicName]?.filter (fun filter => filter != "") :=
  ExtTreeMap.getElem?_filter'

theorem getElem?_remove (m : FilterMap) (name topicName : String) :
    (m.remove name).entries[topicName]? =
      if name = topicName then none else m.entries[topicName]? := by
  simp [remove, ExtTreeMap.getElem?_erase]

theorem getElem?_set (m : FilterMap) (name filter topicName : String) :
    (m.set name filter).entries[topicName]? =
      if name = topicName then (some filter).filter (fun filter => filter != "")
      else m.entries[topicName]? := by
  by_cases hfilter : filter = ""
  · simp [set, hfilter, getElem?_remove, Option.filter_some]
  · simp [set, hfilter, ExtTreeMap.getElem?_insert, Option.filter_some]

theorem ext_getElem? {m m' : FilterMap}
    (h : ∀ topicName : String, m.entries[topicName]? = m'.entries[topicName]?) : m = m' :=
  FilterMap.ext (ExtTreeMap.ext_getElem? h)

theorem mem_iff_exists_getElem? {dict : ExtTreeMap String String} {topicName : String} :
    topicName ∈ dict ↔ ∃ filter, dict[topicName]? = some filter := by
  rw [ExtTreeMap.mem_iff_isSome_getElem?, Option.isSome_iff_exists]

theorem mem_ofDict {dict : ExtTreeMap String String} {topicName : String} :
    topicName ∈ (ofDict dict).entries ↔
      ∃ filter, dict[topicName]? = some filter ∧ filter ≠ "" := by
  rw [mem_iff_exists_getElem?, getElem?_ofDict]
  simp

end FilterMap

namespace FilterAction

/-- What an accepted command does to the map. -/
def mapAction : FilterAction → Option FilterMap.Action
  | clearAll | clearTopics => some .clear
  | removeTopic topicName => some (.remove topicName)
  | setTopic topicName filter => some (.set topicName filter)
  | clearPartitions | addPartition _ | removePartition _ => none

/-- The shown part of the dictionary changes as the map does. -/
theorem ofDict_topics (action : FilterAction) (dict : ExtTreeMap String String) :
    FilterMap.ofDict (action.topics dict) =
      match action.mapAction with
      | some mapAction => (FilterMap.ofDict dict).apply mapAction
      | none => FilterMap.ofDict dict := by
  cases action with
  | clearAll =>
      apply FilterMap.ext_getElem?
      intro topicName
      rw [FilterMap.getElem?_ofDict]
      cases h : dict[topicName]? <;> simp [topics, mapAction, FilterMap.apply, FilterMap.clear, h]
  | clearTopics =>
      apply FilterMap.ext_getElem?
      intro topicName
      rw [FilterMap.getElem?_ofDict]
      simp [topics, mapAction, FilterMap.apply, FilterMap.clear]
  | removeTopic name =>
      apply FilterMap.ext_getElem?
      intro topicName
      simp only [topics, mapAction, FilterMap.apply, FilterMap.getElem?_remove,
        FilterMap.getElem?_ofDict, ExtTreeMap.getElem?_insert, Std.compare_eq_iff_eq]
      split <;> simp
  | setTopic name filter =>
      apply FilterMap.ext_getElem?
      intro topicName
      simp only [topics, mapAction, FilterMap.apply, FilterMap.getElem?_set,
        FilterMap.getElem?_ofDict, ExtTreeMap.getElem?_insert, Std.compare_eq_iff_eq]
      split <;> rfl
  | clearPartitions | addPartition | removePartition => rfl

end FilterAction

namespace Controller

variable {τ : Type*} {c : Controller τ}

/-- The command on the map that an argument vector is, whatever the map. -/
def mapAction : List String → Option FilterMap.Action
  | [command, operation] =>
      if command ≠ "filter" ∧ operation = "clear" then some .clear else none
  | [command, operation, category] =>
      if command ≠ "filters" ∧ operation = "clear" ∧ category = "topic" then some .clear else none
  | [command, operation, category, topicName] =>
      if command ≠ "filters" ∧ operation = "remove" ∧ category = "topic" then
        some (.remove topicName)
      else none
  | [command, operation, category, topicName, filter] =>
      if command ≠ "filters" ∧ operation = "set" ∧ category = "topic" then
        some (.set topicName filter)
      else none
  | _ => none

/-- An accepted command is that on the map; the only one that is refused is the removal of
a topic that is not in the dictionary. -/
theorem mapAction_eq (hdds : c.configuration.ddsEnabled = true) (arguments : List String) :
    mapAction arguments = (c.filterAction arguments).bind FilterAction.mapAction ∨
      ∃ topicName, mapAction arguments = some (.remove topicName) ∧
        topicName ∉ c.topicFilterDict ∧ c.filterAction arguments = none := by
  match arguments with
  | [] | [_] | _ :: _ :: _ :: _ :: _ :: _ :: _ => exact .inl rfl
  | [command, operation] =>
      left
      simp only [mapAction, filterAction]
      split_ifs <;> rfl
  | [command, operation, category] =>
      left
      by_cases hc : command = "filters"
      · simp [mapAction, filterAction, hc]
      · by_cases ho : operation = "clear"
        · by_cases hp : category = "partitions"
          · simp [mapAction, filterAction, FilterAction.mapAction, hc, ho, hp]
          · by_cases ht : category = "topic" <;>
              simp [mapAction, filterAction, FilterAction.mapAction, hc, ho, hp, ht]
        · simp [mapAction, filterAction, ho]
  | [command, operation, category, topicName] =>
      by_cases hmap : command ≠ "filters" ∧ operation = "remove" ∧ category = "topic"
      · obtain ⟨hc, rfl, rfl⟩ := hmap
        by_cases hmem : topicName ∈ c.topicFilterDict
        · left
          simp [mapAction, filterAction, FilterAction.mapAction, hc, hmem]
        · exact .inr ⟨topicName, by simp [mapAction, hc], hmem, by simp [filterAction, hmem]⟩
      · left
        rw [mapAction, if_neg hmap, filterAction]
        split_ifs with hc ha hr ht
        · rfl
        · rfl
        · rfl
        · exact absurd ⟨hc, ht.1, ht.2.1⟩ hmap
        · rfl
  | [command, operation, category, topicName, filter] =>
      left
      simp only [mapAction, filterAction, hdds, true_and]
      split_ifs <;> rfl

/-- What the topic filters show changes as the map does. -/
theorem ofDict_filterCommand (env : External) (hdds : c.configuration.ddsEnabled = true)
    (arguments : List String) :
    FilterMap.ofDict (filterCommand env c arguments).1.topicFilterDict =
      match mapAction arguments with
      | some action => (FilterMap.ofDict c.topicFilterDict).apply action
      | none => FilterMap.ofDict c.topicFilterDict := by
  rw [filterCommand_fst]
  rcases mapAction_eq hdds arguments with haction | ⟨topicName, haction, hmem, hnone⟩
  · rw [haction]
    cases ha : c.filterAction arguments with
    | none => rfl
    | some action =>
        simp only [Option.bind_some]
        rw [(perform_spec env c action).topicFilterDict_eq, FilterAction.ofDict_topics]
  · rw [haction, hnone]
    apply FilterMap.ext_getElem?
    intro name
    simp only [FilterMap.apply, FilterMap.getElem?_remove, FilterMap.getElem?_ofDict]
    split
    · next heq =>
        rw [← heq, ExtTreeMap.getElem?_eq_none hmem]
        rfl
    · rfl

/-- The topic filters behave as the map: the listing shows it, and the removal of a topic
is accepted when the topic is in it. -/
structure StoreIsMap (env : External) (c : Controller τ) (m : FilterMap) : Prop where
  shown : ∀ command, command ≠ "filter" → (filterCommand env c [command]).2 =
    [.filters m.entries.toList c.partitionFilterSet.toList]
  removed : ∀ command topicName, command ≠ "filters" →
    (filterCommand env c [command, "remove", "topic", topicName]).2 =
      if topicName ∈ m.entries then []
      else [.error ("Topic filter do not contains filter_str: " ++ topicName ++ ".")]

/-- No topic has the empty filter. -/
def NoEmptyFilter (dict : ExtTreeMap String String) : Prop :=
  ∀ topicName filter : String, dict[topicName]? = some filter → filter ≠ ""

/-- Without empty filters, every topic of the dictionary is shown. -/
theorem NoEmptyFilter.mem_ofDict {dict : ExtTreeMap String String} (h : NoEmptyFilter dict)
    {topicName : String} : topicName ∈ (FilterMap.ofDict dict).entries ↔ topicName ∈ dict := by
  rw [FilterMap.mem_ofDict, FilterMap.mem_iff_exists_getElem?]
  refine exists_congr fun filter => and_iff_left_of_imp ?_
  exact h topicName filter

theorem filterCommand_removeTopic (env : External) {command : String} (hc : command ≠ "filters")
    (topicName : String) :
    (filterCommand env c [command, "remove", "topic", topicName]).2 =
      if topicName ∈ c.topicFilterDict then []
      else [.error ("Topic filter do not contains filter_str: " ++ topicName ++ ".")] := by
  have hcontains := checkFilterContainsValue_topic c topicName
  by_cases hmem : topicName ∈ c.topicFilterDict <;>
    simp [filterCommand, hc, hcontains, hmem, String.append_assoc]

theorem filterCommand_listing (env : External) {command : String} (hc : command ≠ "filter") :
    (filterCommand env c [command]).2 =
      [.filters (FilterMap.ofDict c.topicFilterDict).entries.toList
        c.partitionFilterSet.toList] := by
  simp [filterCommand, hc, FilterMap.ofDict, ExtTreeMap.toList_filter]

/-- The store is its shown part when no topic has the empty filter. -/
theorem storeIsMap_iff (env : External) (c : Controller τ) :
    StoreIsMap env c (.ofDict c.topicFilterDict) ↔ NoEmptyFilter c.topicFilterDict := by
  constructor
  · intro h topicName filter hget
    rintro rfl
    have hmem : topicName ∈ c.topicFilterDict :=
      FilterMap.mem_iff_exists_getElem?.mpr ⟨"", hget⟩
    have hnot : topicName ∉ (FilterMap.ofDict c.topicFilterDict).entries := by
      simp [FilterMap.mem_ofDict, hget]
    have hremoved := h.removed "filter" topicName (by decide)
    rw [filterCommand_removeTopic env (by decide), if_pos hmem, if_neg hnot] at hremoved
    simp at hremoved
  · intro h
    refine ⟨fun command hc => filterCommand_listing env hc, fun command topicName hc => ?_⟩
    rw [filterCommand_removeTopic env hc]
    exact if_congr h.mem_ofDict.symm rfl rfl

end Controller

/-! ## Runs -/

namespace FilterAction

/-- The action leaves a topic with the empty filter, given the filters that are set. -/
def StoresEmpty (m : FilterMap) : FilterAction → Prop
  | clearAll => m.entries ≠ ∅
  | removeTopic _ => True
  | setTopic _ filter => filter = ""
  | clearTopics | clearPartitions | addPartition _ | removePartition _ => False

theorem noEmptyFilter_topics_iff {action : FilterAction} {dict : ExtTreeMap String String}
    (h : Controller.NoEmptyFilter dict) :
    Controller.NoEmptyFilter (action.topics dict) ↔ ¬ action.StoresEmpty (.ofDict dict) := by
  cases action with
  | clearAll =>
      simp only [StoresEmpty, ne_eq, not_not, ExtTreeMap.eq_empty_iff_forall_not_mem,
        h.mem_ofDict]
      refine forall_congr' fun topicName => ?_
      rw [ExtTreeMap.mem_iff_isSome_getElem?]
      cases hget : dict[topicName]? <;> simp [topics, hget]
  | removeTopic name =>
      refine iff_of_false (fun hnew => hnew name "" ?_ rfl) (fun hnot => hnot trivial)
      simp [topics]
  | setTopic name filter =>
      simp only [Controller.NoEmptyFilter, topics, StoresEmpty]
      constructor
      · intro hnew
        exact hnew name filter (by simp)
      · intro hfilter topicName filter' hget
        rw [ExtTreeMap.getElem?_insert] at hget
        split at hget
        · exact Option.some.inj hget ▸ hfilter
        · exact h topicName filter' hget
  | clearTopics => exact iff_of_true (by simp [Controller.NoEmptyFilter, topics]) id
  | clearPartitions | addPartition | removePartition => exact iff_of_true h id

end FilterAction

namespace Spy

variable {τ π δ : Type*}

/-- The command on the map that an event is. While data is printed, a line of input is
none. -/
def mapAction (s : Spy τ) : Event τ π → Option FilterMap.Action
  | .input .filter arguments => if s.printing then none else Controller.mapAction arguments
  | _ => none

/-- The map after one more event in a state of the tool. -/
def stepMap (s : Spy τ) (m : FilterMap) (e : Event τ π) : FilterMap :=
  match s.mapAction e with
  | some action => m.apply action
  | none => m

/-- The map after a sequence of events: the filters of the configuration, and then the
commands on them. -/
def filterMap (env : External) (ts : TypeSupport τ π δ) (cfg : Configuration)
    (es : List (Event τ π)) : FilterMap :=
  (run (fun p e => (step env ts p.1 e, stepMap p.1 p.2 e))
    (start cfg, .ofDict cfg.contentTopicFilterDict) es).2

variable {env : External} {ts : TypeSupport τ π δ} {cfg : Configuration}

theorem filterMap_concat (es : List (Event τ π)) (e : Event τ π) :
    filterMap env ts cfg (es ++ [e]) =
      stepMap (exec env ts cfg es) (filterMap env ts cfg es) e := by
  have hfst : ∀ es : List (Event τ π), (run (fun p e => (step env ts p.1 e, stepMap p.1 p.2 e))
      (start cfg, .ofDict cfg.contentTopicFilterDict) es).1 = exec env ts cfg es := by
    intro es
    induction es using List.reverseRecOn with
    | nil => rfl
    | append_singleton es e ih => simp [ih]
  simp only [filterMap, run_append, run_cons, run_nil, hfst]

/-- An event changes what the topic filters show as it changes the map. -/
theorem ofDict_step (env : External) (ts : TypeSupport τ π δ) {s : Spy τ}
    (hdds : s.controller.configuration.ddsEnabled = true) (e : Event τ π) :
    FilterMap.ofDict (step env ts s e).controller.topicFilterDict =
      stepMap s (.ofDict s.controller.topicFilterDict) e := by
  have hquiet : s.filterAction e = none → s.mapAction e = none →
      FilterMap.ofDict (step env ts s e).controller.topicFilterDict =
        stepMap s (.ofDict s.controller.topicFilterDict) e := by
    intro ha hm
    rw [(step_of_no_action env ts ha).topicFilterDict_eq, stepMap, hm]
  cases e with
  | input command arguments =>
      cases command with
      | filter =>
          by_cases hp : s.printing = true
          · exact hquiet (by simp [filterAction, hp]) (by simp [mapAction, hp])
          · have hcommand := Controller.ofDict_filterCommand env hdds arguments
            simpa [step, readInput, runCommand, stepMap, mapAction, hp] using hcommand
      | _ => exact hquiet rfl rfl
  | _ => exact hquiet rfl rfl

/-- The topic filters that are shown are those of the map, after every run. -/
theorem ofDict_exec (hdds : cfg.ddsEnabled = true) (es : List (Event τ π)) :
    FilterMap.ofDict (exec env ts cfg es).controller.topicFilterDict =
      filterMap env ts cfg es := by
  induction es using List.reverseRecOn with
  | nil => rfl
  | append_singleton es e ih =>
      have henabled : (exec env ts cfg es).controller.configuration.ddsEnabled = true := by
        rw [configuration_exec, hdds]
      rw [exec_concat, filterMap_concat, ← ih, ofDict_step env ts henabled]

/-- The event does not leave a topic with the empty filter. -/
def KeepsNonempty (env : External) (ts : TypeSupport τ π δ) (cfg : Configuration)
    (pre : List (Event τ π)) (e : Event τ π) : Prop :=
  ∀ action, (exec env ts cfg pre).filterAction e = some action →
    ¬ action.StoresEmpty (filterMap env ts cfg pre)

/-- Throughout a run the topic filters behave as the map if and only if the configuration
has no empty filter and no command leaves a topic with one. -/
theorem storeIsMap_iff_keepsNonempty (env : External) (ts : TypeSupport τ π δ)
    (hdds : cfg.ddsEnabled = true) (es : List (Event τ π)) :
    Always (fun pre => Controller.StoreIsMap env (exec env ts cfg pre).controller
        (filterMap env ts cfg pre)) es ↔
      Controller.NoEmptyFilter cfg.contentTopicFilterDict ∧
        EachStep (KeepsNonempty env ts cfg) es := by
  have hstore : ∀ pre : List (Event τ π), Controller.StoreIsMap env
      (exec env ts cfg pre).controller (filterMap env ts cfg pre) ↔
        Controller.NoEmptyFilter (exec env ts cfg pre).controller.topicFilterDict := by
    intro pre
    rw [← ofDict_exec hdds, Controller.storeIsMap_iff]
  rw [always_iff_start_and_eachStep _ es (C := KeepsNonempty env ts cfg), hstore]
  · rfl
  · intro pre e hpre
    rw [hstore] at hpre ⊢
    rw [exec_concat]
    cases ha : (exec env ts cfg pre).filterAction e with
    | none =>
        rw [(step_of_no_action env ts ha).topicFilterDict_eq]
        exact iff_of_true hpre (by simp [KeepsNonempty, ha])
    | some action =>
        rw [controller_step_of_action env ts ha,
          (Controller.perform_spec env _ action).topicFilterDict_eq,
          FilterAction.noEmptyFilter_topics_iff hpre, ofDict_exec hdds]
        simp [KeepsNonempty, ha]

theorem storeIsMap_iff_keepsNonempty_set :
    Always (fun pre => Controller.StoreIsMap literal
        (exec literal keyedType (withPartitions ∅) pre).controller
        (filterMap literal keyedType (withPartitions ∅) pre))
      [.input .filter ["filter", "set", "topic", "topic", "id > 1"]] ↔
      Controller.NoEmptyFilter (withPartitions ∅).contentTopicFilterDict ∧
        EachStep (KeepsNonempty literal keyedType (withPartitions ∅))
          [.input .filter ["filter", "set", "topic", "topic", "id > 1"]] :=
  storeIsMap_iff_keepsNonempty literal keyedType rfl _

/-- The filter of a topic that has been set and removed can be removed again. -/
theorem not_storeIsMap_removed :
    "topic" ∉ (filterMap literal keyedType (withPartitions ∅)
        [.input .filter ["filter", "set", "topic", "topic", "id > 1"],
          .input .filter ["filter", "remove", "topic", "topic"]]).entries ∧
      ((exec literal keyedType (withPartitions ∅)
        [.input .filter ["filter", "set", "topic", "topic", "id > 1"],
          .input .filter ["filter", "remove", "topic", "topic"]]).controller.filterCommand literal
            ["filter", "remove", "topic", "topic"]).2 = [] ∧
      ¬ Always (fun pre => Controller.StoreIsMap literal
          (exec literal keyedType (withPartitions ∅) pre).controller
          (filterMap literal keyedType (withPartitions ∅) pre))
        [.input .filter ["filter", "set", "topic", "topic", "id > 1"],
          .input .filter ["filter", "remove", "topic", "topic"]] := by
  have hmem : "topic" ∉ (filterMap literal keyedType (withPartitions ∅)
      [.input .filter ["filter", "set", "topic", "topic", "id > 1"],
        .input .filter ["filter", "remove", "topic", "topic"]]).entries := by decide
  refine ⟨hmem, rfl, fun h => ?_⟩
  have hremoved := h.last.removed "filter" "topic" (by decide)
  rw [if_neg hmem] at hremoved
  exact List.cons_ne_nil _ _ hremoved.symm

end Spy

end FastDdsSpy
