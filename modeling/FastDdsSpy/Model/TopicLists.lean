import FastDdsSpy.Library.PastTime
import FastDdsSpy.Model.Types
import Mathlib.Data.Finset.Insert

/-! # Topic lists of the pipe

The allowlist and the blocklist from the configuration file to the pipe, at start-up and
on every reload. -/

namespace FastDdsSpy

open Std PastTime

/-- The sets of topics and filters in `DdsPipeConfiguration`. -/
structure DdsPipeConfiguration where
  builtinTopics : ExtTreeSet DdsTopic DdsTopic.cmp := ∅
  allowlist : Finset WildcardDdsFilterTopic := ∅
  blocklist : Finset WildcardDdsFilterTopic := ∅

/-- The two optional lists under the `dds` tag of a configuration file. -/
structure DdsYaml where
  allowlist : Option (Finset WildcardDdsFilterTopic) := none
  blocklist : Option (Finset WildcardDdsFilterTopic) := none

/-- `TYPE_OBJECT_TOPIC_NAME` and `type_object_topic()` of `ddspipe_core`. -/
structure TypeObject where
  topicName : String
  topic : DdsTopic

/-- A filter whose only set field is the topic name. -/
def WildcardDdsFilterTopic.ofName (topicName : String) : WildcardDdsFilterTopic :=
  ⟨some topicName, none⟩

def participantInfoTopicName : String := "__internal__/participant_info"

def endpointInfoTopicName : String := "__internal__/endpoint_info"

def participantInfoTopic : DdsTopic :=
  ⟨participantInfoTopicName, "__internal__::participant_info", ⟨.volatile, .bestEffort⟩⟩

def endpointInfoTopic : DdsTopic :=
  ⟨endpointInfoTopicName, "__internal__::endpoint_info", ⟨.volatile, .bestEffort⟩⟩

namespace DdsPipeConfiguration

/-- `load_dds_configuration_`: a list that is given replaces the one in the configuration. -/
def loadDdsConfiguration (configuration : DdsPipeConfiguration) (yml : DdsYaml) :
    DdsPipeConfiguration :=
  { configuration with
    allowlist := yml.allowlist.getD configuration.allowlist
    blocklist := yml.blocklist.getD configuration.blocklist }

/-- `load_configuration_`, on a file with or without the `dds` tag. The topics of ROS 2
services are always blocked. -/
def loadConfiguration (yml : Option DdsYaml) : DdsPipeConfiguration :=
  let configuration := yml.elim {} (loadDdsConfiguration {})
  { configuration with
    blocklist := insert (.ofName "rr/*") (insert (.ofName "rq/*") configuration.blocklist) }

/-- `Backend::load_internal_topics_`. An empty allowlist allows everything and is left alone. -/
def loadInternalTopics (typeObject : TypeObject) (configuration : DdsPipeConfiguration) :
    DdsPipeConfiguration :=
  { configuration with
    builtinTopics := ((configuration.builtinTopics.insert participantInfoTopic).insert
      endpointInfoTopic).insert typeObject.topic
    allowlist :=
      if configuration.allowlist ≠ ∅ then
        insert (.ofName endpointInfoTopicName) (insert (.ofName participantInfoTopicName)
          (insert (.ofName typeObject.topicName) configuration.allowlist))
      else configuration.allowlist }

/-- The rule of the user manual: the blocklist has priority, and an allowlist that is not
configured allows every topic. -/
def IsTopicAllowed (env : External) (configuration : DdsPipeConfiguration) (topic : DdsTopic) :
    Prop :=
  (∀ filter ∈ configuration.blocklist, env.topicMatches filter topic = false) ∧
    (configuration.allowlist = ∅ ∨
      ∃ filter ∈ configuration.allowlist, env.topicMatches filter topic = true)

instance (env : External) (configuration : DdsPipeConfiguration) (topic : DdsTopic) :
    Decidable (IsTopicAllowed env configuration topic) :=
  inferInstanceAs (Decidable (_ ∧ _))

end DdsPipeConfiguration

open DdsPipeConfiguration

/-- The lists that the pipe is constructed with. -/
def startPipe (typeObject : TypeObject) (yml : Option DdsYaml) : DdsPipeConfiguration :=
  loadInternalTopics typeObject (loadConfiguration yml)

/-- `Backend::reload_configuration`, with the file as it is now. The lists in force are
replaced. -/
def reloadConfiguration (typeObject : TypeObject) (_configuration : DdsPipeConfiguration)
    (yml : Option DdsYaml) : DdsPipeConfiguration :=
  loadInternalTopics typeObject (loadConfiguration yml)

/-- The lists in force after the reloads of a run. -/
def pipeLists (typeObject : TypeObject) (yml : Option DdsYaml)
    (reloads : List (Option DdsYaml)) : DdsPipeConfiguration :=
  run (reloadConfiguration typeObject) (startPipe typeObject yml) reloads

end FastDdsSpy
