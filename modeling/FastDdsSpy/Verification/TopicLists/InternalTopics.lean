import FastDdsSpy.Model.TopicLists
import FastDdsSpy.Verification.Instances

/-! # The internal topics under the topic lists

The allowlist never keeps the spy's own topics out: it is empty or has been given their
names. Nothing protects them from the blocklist. -/

namespace FastDdsSpy

open PastTime

/-- The topics on which the spy hears of participants, of endpoints and of types. -/
def internalTopics (typeObject : TypeObject) : List DdsTopic :=
  [participantInfoTopic, endpointInfoTopic, typeObject.topic]

/-- The name of each internal topic, taken as a pattern, matches that topic. -/
structure MatchesOwnName (env : External) (typeObject : TypeObject) : Prop where
  participantInfo : env.topicMatches (.ofName participantInfoTopicName) participantInfoTopic = true
  endpointInfo : env.topicMatches (.ofName endpointInfoTopicName) endpointInfoTopic = true
  typeObject : env.topicMatches (.ofName typeObject.topicName) typeObject.topic = true

namespace DdsPipeConfiguration

variable (env : External) (typeObject : TypeObject) (configuration : DdsPipeConfiguration)

@[simp] theorem blocklist_loadInternalTopics :
    (loadInternalTopics typeObject configuration).blocklist = configuration.blocklist := rfl

theorem allowlist_loadInternalTopics_of_eq_empty (h : configuration.allowlist = ∅) :
    (loadInternalTopics typeObject configuration).allowlist = ∅ := by
  simp [loadInternalTopics, h]

theorem mem_allowlist_loadInternalTopics (h : configuration.allowlist ≠ ∅)
    (filter : WildcardDdsFilterTopic) :
    filter ∈ (loadInternalTopics typeObject configuration).allowlist ↔
      filter ∈ [.ofName endpointInfoTopicName, .ofName participantInfoTopicName,
        .ofName typeObject.topicName] ∨ filter ∈ configuration.allowlist := by
  simp [loadInternalTopics, h, or_assoc]

theorem mem_builtinTopics_loadInternalTopics {topic : DdsTopic}
    (h : topic ∈ internalTopics typeObject) :
    topic ∈ (loadInternalTopics typeObject configuration).builtinTopics := by
  have hself : DdsTopic.cmp topic topic = .eq := Std.ReflCmp.compare_self
  simp only [internalTopics, List.mem_cons, List.not_mem_nil, or_false] at h
  rcases h with rfl | rfl | rfl <;>
    simp only [loadInternalTopics, Std.ExtTreeSet.mem_insert, hself, true_or, or_true]

variable {env typeObject}

/-- Each internal topic is matched by the filter that was added for it. -/
theorem exists_ofName_matches (hself : MatchesOwnName env typeObject) {topic : DdsTopic}
    (h : topic ∈ internalTopics typeObject) :
    ∃ filter ∈ [.ofName endpointInfoTopicName, .ofName participantInfoTopicName,
      .ofName typeObject.topicName], env.topicMatches filter topic = true := by
  simp only [internalTopics, List.mem_cons, List.not_mem_nil, or_false] at h
  rcases h with rfl | rfl | rfl
  · exact ⟨.ofName participantInfoTopicName, by simp, hself.participantInfo⟩
  · exact ⟨.ofName endpointInfoTopicName, by simp, hself.endpointInfo⟩
  · exact ⟨.ofName typeObject.topicName, by simp, hself.typeObject⟩

/-- Only the blocklist decides about an internal topic. -/
theorem isTopicAllowed_internal_iff (hself : MatchesOwnName env typeObject) {topic : DdsTopic}
    (h : topic ∈ internalTopics typeObject) :
    IsTopicAllowed env (loadInternalTopics typeObject configuration) topic ↔
      ∀ filter ∈ configuration.blocklist, env.topicMatches filter topic = false := by
  rw [IsTopicAllowed, blocklist_loadInternalTopics]
  apply and_iff_left
  by_cases hempty : configuration.allowlist = ∅
  · exact .inl (allowlist_loadInternalTopics_of_eq_empty typeObject configuration hempty)
  · obtain ⟨filter, hfilter, hmatches⟩ := exists_ofName_matches hself h
    have hmem := mem_allowlist_loadInternalTopics typeObject configuration hempty filter
    exact .inr ⟨filter, hmem.mpr (.inl hfilter), hmatches⟩

/-- A topic that carries none of the internal names is allowed as it was before. -/
theorem isTopicAllowed_loadInternalTopics_iff {topic : DdsTopic}
    (h : ∀ filter ∈ [.ofName endpointInfoTopicName, .ofName participantInfoTopicName,
      .ofName typeObject.topicName], env.topicMatches filter topic = false) :
    IsTopicAllowed env (loadInternalTopics typeObject configuration) topic ↔
      IsTopicAllowed env configuration topic := by
  by_cases hempty : configuration.allowlist = ∅
  · have hloaded := allowlist_loadInternalTopics_of_eq_empty typeObject configuration hempty
    simp [IsTopicAllowed, hempty, hloaded]
  · have hmem := mem_allowlist_loadInternalTopics typeObject configuration hempty
    have hnonempty : (loadInternalTopics typeObject configuration).allowlist ≠ ∅ :=
      Finset.ne_empty_of_mem ((hmem (.ofName endpointInfoTopicName)).mpr (.inl (by simp)))
    simp only [IsTopicAllowed, blocklist_loadInternalTopics, hempty, hnonempty, false_or]
    refine and_congr_right fun _ => ⟨?_, ?_⟩
    · intro hex
      obtain ⟨filter, hfilter, hmatches⟩ := hex
      rcases (hmem filter).mp hfilter with hname | hfilter
      · exact absurd hmatches (by simp [h filter hname])
      · exact ⟨filter, hfilter, hmatches⟩
    · intro hex
      obtain ⟨filter, hfilter, hmatches⟩ := hex
      exact ⟨filter, (hmem filter).mpr (.inr hfilter), hmatches⟩

end DdsPipeConfiguration

open DdsPipeConfiguration

/-! ## Runs of reloads -/

/-- None of the spy's own channels is silenced. -/
def InternalTopicsAllowed (env : External) (typeObject : TypeObject)
    (configuration : DdsPipeConfiguration) : Prop :=
  ∀ topic ∈ internalTopics typeObject, IsTopicAllowed env configuration topic

/-- No filter that a file puts on the blocklist matches an internal topic. -/
def BlocksNoInternalTopic (env : External) (typeObject : TypeObject) (yml : Option DdsYaml) :
    Prop :=
  ∀ topic ∈ internalTopics typeObject, ∀ filter ∈ (loadConfiguration yml).blocklist,
    env.topicMatches filter topic = false

section Runs

variable {env : External} {typeObject : TypeObject}

/-- A reload forgets the lists of the files before it. -/
theorem pipeLists_concat (yml : Option DdsYaml) (reloads : List (Option DdsYaml))
    (file : Option DdsYaml) :
    pipeLists typeObject yml (reloads ++ [file]) = startPipe typeObject file := by
  simp [pipeLists, reloadConfiguration, startPipe]

theorem internalTopicsAllowed_startPipe_iff (hself : MatchesOwnName env typeObject)
    (yml : Option DdsYaml) :
    InternalTopicsAllowed env typeObject (startPipe typeObject yml) ↔
      BlocksNoInternalTopic env typeObject yml :=
  forall₂_congr fun _ htopic => isTopicAllowed_internal_iff (loadConfiguration yml) hself htopic

/-- From start-up on and through every reload, the internal topics are allowed if and only if
no file of the run blocks one of them. -/
theorem internalTopicsAllowed_iff (hself : MatchesOwnName env typeObject) (yml : Option DdsYaml)
    (reloads : List (Option DdsYaml)) :
    Always (fun pre => InternalTopicsAllowed env typeObject (pipeLists typeObject yml pre))
        reloads ↔
      ∀ file ∈ yml :: reloads, BlocksNoInternalTopic env typeObject file := by
  rw [always_iff_start_and_eachStep (C := fun _ => BlocksNoInternalTopic env typeObject),
    eachStep_iff_forall_mem, List.forall_mem_cons]
  · exact and_congr_left' (internalTopicsAllowed_startPipe_iff hself yml)
  · intro pre file _
    rw [pipeLists_concat]
    exact internalTopicsAllowed_startPipe_iff hself file

end Runs

/-! ## Files that keep and that break the channels -/

instance (env : External) (typeObject : TypeObject) (yml : Option DdsYaml) :
    Decidable (BlocksNoInternalTopic env typeObject yml) :=
  inferInstanceAs (Decidable (∀ topic ∈ internalTopics typeObject, ∀ filter ∈ _, _))

/-- A type object topic with a name like those of the other two. -/
def typeObjectExample : TypeObject :=
  ⟨"__internal__/type_object", ⟨"__internal__/type_object", "TypeObject",
    ⟨.volatile, .bestEffort⟩⟩⟩

theorem matchesOwnName_wildcard : MatchesOwnName wildcard typeObjectExample :=
  ⟨by decide, by decide, by decide⟩

/-- An allowlist for user topics that a reload replaces by a blocklist. -/
theorem internalTopicsAllowed_iff_userLists :
    Always (fun pre => InternalTopicsAllowed wildcard typeObjectExample
      (pipeLists typeObjectExample (some { allowlist := some {.ofName "rt/*"} }) pre))
      [some { blocklist := some {.ofName "rt/*"} }] :=
  (internalTopicsAllowed_iff matchesOwnName_wildcard _ _).mpr (by decide)

/-- A file that blocks every topic, of any name. -/
def blockAll : DdsYaml := { blocklist := some {.ofName "*"} }

/-- A blocklist for every topic silences the spy, at start-up and on a reload. -/
theorem not_internalTopicsAllowed_blockAll :
    MatchesOwnName wildcard typeObjectExample ∧
      ¬ InternalTopicsAllowed wildcard typeObjectExample
        (startPipe typeObjectExample (some blockAll)) ∧
      ¬ InternalTopicsAllowed wildcard typeObjectExample
        (pipeLists typeObjectExample none [some blockAll]) := by
  have hblocked : ¬ InternalTopicsAllowed wildcard typeObjectExample
      (startPipe typeObjectExample (some blockAll)) := by
    rw [internalTopicsAllowed_startPipe_iff matchesOwnName_wildcard]
    decide
  exact ⟨matchesOwnName_wildcard, hblocked, hblocked⟩

end FastDdsSpy
