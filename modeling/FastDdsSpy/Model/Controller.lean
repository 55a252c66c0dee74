import FastDdsSpy.Model.Backend
import FastDdsSpy.Model.ModelParser

/-! # `Controller`

The commands of the tool. A command returns the controller and what it shows, in order.
`arguments` holds the command word and is never empty. -/

namespace FastDdsSpy

open Std

/-- The two callbacks that print the data of a topic. -/
inductive StreamCallback
  | dataStreamCallback | dataStreamCallbackVerbose
  deriving DecidableEq, Repr

/-- The result that `view_.show` is given. -/
inductive Yaml
  | null
  | simpleParticipants (data : List SimpleParticipantData)
  | complexParticipants (data : List ComplexParticipantData)
  | complexParticipant (data : ComplexParticipantData)
  | simpleEndpoints (data : List SimpleEndpointData)
  | complexEndpoints (data : List ComplexEndpointData)
  | complexEndpoint (data : ComplexEndpointData)
  | simpleTopics (data : List SimpleTopicData) (isCompact : Bool)
  | complexTopics (data : List ComplexTopicData)
  | topicKeys (data : List TopicKeysData) (isCompact : Bool)

inductive Output
  | error (text : String)
  | yaml (yml : Yaml)
  | text (text : String)
  | filters (topic : List (String × String)) (partitions : List String)

structure Controller (τ : Type*) where
  backend : Backend
  model : SpyModel τ StreamCallback
  configuration : Configuration
  partitionFilterSet : ExtTreeSet String
  topicFilterDict : ExtTreeMap String String

namespace Controller

variable {τ : Type*} (env : External) (c : Controller τ)

/-! ## Start-up -/

/-- `Controller::Controller`. -/
def ofConfiguration (configuration : Configuration) : Controller τ where
  backend := .ofConfiguration configuration
  model := .empty configuration.ros2Types
  configuration := configuration
  partitionFilterSet := ∅
  topicFilterDict := ∅

/-- `set_partition_filter`. -/
def setPartitionFilter (partitionFilterSet : ExtTreeSet String) : Controller τ :=
  { c with partitionFilterSet := partitionFilterSet }

/-- `set_content_topic_filter`. -/
def setContentTopicFilter (topicFilterDict : ExtTreeMap String String) : Controller τ :=
  { c with topicFilterDict := topicFilterDict }

/-- The controller that `main` sets up before it runs it. -/
def start (configuration : Configuration) : Controller τ :=
  ((ofConfiguration configuration).setPartitionFilter
    configuration.allowedPartitionList).setContentTopicFilter
      configuration.contentTopicFilterDict

/-! ## Arguments -/

def verboseArgument (argument : String) : Bool :=
  argument ∈ ["verbose", "v", "-v", "--v", "V"]

def verboseVerboseArgument (argument : String) : Bool :=
  argument ∈ ["verbose2", "vv", "--vv", "VV"]

def idlArgument (argument : String) : Bool := argument == "idl"

def keysArgument (argument : String) : Bool := argument ∈ ["keys", "key", "k", "K"]

def allArgument (argument : String) : Bool := argument ∈ ["all", "a", "-a", "--a", "A"]

/-! ## Entities -/

/-- `dds_entity_command__`; `dataGuid` reads the GUID of what the specific query returns. -/
def ddsEntityCommand {α : Type*} (arguments : List String) (simple verbose : Yaml)
    (specific : Guid → α) (dataGuid : α → Guid) (toYaml : α → Yaml) (entityName : String) :
    List Output :=
  match arguments with
  | _ :: argument :: _ =>
      if verboseArgument argument then [.yaml verbose]
      else
        let guid := env.guidOfString argument
        if !guid.isValid then
          [.error (argument ++ " is not a valid GUID. " ++
            "Use format <xx.xx.xx.xx.xx.xx.xx.xx.xx.xx.xx.xx|xx.xx.xx.xx>")]
        else
          let data := specific guid
          if !(dataGuid data).isValid then
            [.error (argument ++ " does not match with any known " ++ entityName ++ ".")]
          else [.yaml (toYaml data)]
  | _ => [.yaml simple]

def participantsCommand (arguments : List String) : List Output :=
  ddsEntityCommand env arguments
    (.simpleParticipants (ModelParser.participants c.model))
    (.complexParticipants (ModelParser.participantsVerbose env c.model))
    (ModelParser.participantsByGuid env c.model) (fun data => data.guid) .complexParticipant
    "participant"

def writersCommand (arguments : List String) : List Output :=
  ddsEntityCommand env arguments
    (.simpleEndpoints (ModelParser.writers env c.model))
    (.complexEndpoints (ModelParser.writersVerbose env c.model))
    (ModelParser.writersByGuid env c.model) ComplexEndpointData.guid .complexEndpoint "writer"

def readersCommand (arguments : List String) : List Output :=
  ddsEntityCommand env arguments
    (.simpleEndpoints (ModelParser.readers env c.model))
    (.complexEndpoints (ModelParser.readersVerbose env c.model))
    (ModelParser.readersByGuid env c.model) ComplexEndpointData.guid .complexEndpoint "reader"

/-! ## Topics -/

/-- The filter of a command that names a topic. -/
def topicFilter (name : String) : WildcardDdsFilterTopic := { topicName := some name }

/-- Shows the result of a query, or that the topic name matches nothing. -/
def showUnlessEmpty {α : Type*} (name : String) (data : List α) (yml : Yaml) : List Output :=
  if data.isEmpty then
    [.error ("<" ++ name ++ "> does not match any topic in the DDS network.")]
  else [.yaml yml]

def noKeysText (name : String) : String :=
  "<" ++ name ++ "> does not match any topic in the DDS network or no type information available."

/-- `topics_command_`. -/
def topicsCommand (arguments : List String) : List Output :=
  match arguments with
  | [_] => [.yaml (.simpleTopics (ModelParser.topics env c.model {}) true)]
  | [_, arg1] =>
      if verboseArgument arg1 then
        [.yaml (.simpleTopics (ModelParser.topics env c.model {}) false)]
      else if verboseVerboseArgument arg1 then
        [.yaml (.complexTopics (ModelParser.topicsVerbose env c.model {}))]
      else
        let data := ModelParser.topics env c.model (topicFilter arg1)
        showUnlessEmpty arg1 data (.simpleTopics data true)
  | [_, arg1, arg2] =>
      if verboseArgument arg2 then
        let data := ModelParser.topics env c.model (topicFilter arg1)
        showUnlessEmpty arg1 data (.simpleTopics data false)
      else if verboseVerboseArgument arg2 then
        let data := ModelParser.topicsVerbose env c.model (topicFilter arg1)
        showUnlessEmpty arg1 data (.complexTopics data)
      else if idlArgument arg2 then
        let data := ModelParser.topicsTypeIdl env c.model (topicFilter arg1)
        if data.isEmpty then
          [.error ("<" ++ arg1 ++ "> does not match any topic in the DDS network.")]
        else [.text data, .yaml .null]
      else if keysArgument arg2 then
        let data := ModelParser.topicsKeys env c.model (topicFilter arg1)
        if data.isEmpty then [.error (noKeysText arg1)] else [.yaml (.topicKeys data true)]
      else
        [.error ("<" ++ arg2 ++ "> is not a valid topic option. " ++
          "Valid options are \"v \", \"vv\" (verbosity modes), \"idl\" or \"keys\".")]
  | [_, arg1, arg2, arg3] =>
      if keysArgument arg2 then
        let data := ModelParser.topicsKeys env c.model (topicFilter arg1)
        if data.isEmpty then [.error (noKeysText arg1)]
        else if verboseArgument arg3 then [.yaml (.topicKeys data false)]
        else
          -- the branch does not return: the empty result is shown after the error
          [.error ("Last argument <" ++ arg3 ++ "> is not valid. " ++
            "Only \"v\" (verbosity mdode) is allowed after \"keys\"."), .yaml .null]
      else [.yaml .null]
  | _ => [.yaml .null]

/-! ## Printing of data -/

/-- The callback that `print_command_` chooses by its third argument. -/
def printCallback (options : List String) : StreamCallback :=
  match options with
  | option :: _ =>
      if verboseArgument option then .dataStreamCallbackVerbose else .dataStreamCallback
  | [] => .dataStreamCallback

/-- `print_command_` until it waits for the user; the flag tells that it waits. -/
def printCommand (arguments : List String) : Controller τ × List Output × Bool :=
  match arguments with
  | _ :: argument :: options =>
      if allArgument argument then
        let streamer := c.model.toDataStreamer.activateAll .dataStreamCallbackVerbose
        ({ c with model := { c.model with toDataStreamer := streamer } }, [], true)
      else
        let topics := ModelParser.getTopics env c.model (topicFilter argument)
        if topics.isEmpty then
          (c, [.error ("<" ++ argument ++ "> does not match any topic discovered.")], false)
        else if !c.model.isAnyTopicTypeDiscovered topics then
          (c, [.error "No type information available and thus cannot print data."], false)
        else
          let streamer :=
            c.model.toDataStreamer.activate (topicFilter argument) (printCallback options)
          ({ c with model := { c.model with toDataStreamer := streamer } }, [], true)
  | _ => (c, [.error ("Command <" ++ arguments.headD "" ++
      "> requires at least one argument.")], false)

/-- `print_command_` after the user pressed enter. -/
def stopPrinting : Controller τ :=
  { c with model := { c.model with toDataStreamer := c.model.toDataStreamer.deactivate } }

/-! ## Filters -/

/-- `update_content_topicfilter`. -/
def updateContentTopicfilter (topicName : String) : Controller τ :=
  { c with
    backend := c.backend.updateReadersTrackContentFilter topicName
      (c.topicFilterDict[topicName]?.getD "") }

/-- `update_topics`. -/
def updateTopics : Controller τ :=
  c.model.endpointDatabase.toList.foldl
    (fun c endpoint => c.updateContentTopicfilter endpoint.2.info.topic.topicName) c

/-- The inner loop of `update_endpoints`, which stops at the first filter that matches. -/
def matchesFilter (filters : ExtTreeSet String) (currPartition : String) : Bool :=
  filters.toList.any (fun filter =>
    env.matchPattern filter currPartition || env.matchPattern currPartition filter)

/-- The loop of `update_endpoints` over the characters of a partition string. -/
def scanPartitions (filters : ExtTreeSet String) :
    List Char → String → Bool → Bool
  | [], currPartition, active => matchesFilter env filters currPartition || active
  | ch :: rest, currPartition, active =>
      if ch = '|' then
        scanPartitions filters rest "" (matchesFilter env filters currPartition || active)
      else scanPartitions filters rest (currPartition.push ch) active

/-- The flag that `update_endpoints` computes for an endpoint. -/
def endpointActive (filters : ExtTreeSet String) (info : EndpointInfo) : Bool :=
  if filters.isEmpty then true
  else info.specificPartitions.toList.foldl
    (fun active pair => scanPartitions env filters pair.2.toList "" active) false

/-- The loop of `update_endpoints` that writes the flags back. The entry is always found:
the keys come from the database itself. -/
def writeBack (database : ExtTreeMap Guid EndpointInfoData) (flags : List (Guid × Bool)) :
    ExtTreeMap Guid EndpointInfoData :=
  flags.foldl (fun database flag =>
    match database[flag.1]? with
    | some endpointTmp => database.insert flag.1 (endpointTmp.setActive flag.2)
    | none => database) database

/-- `update_endpoints`. -/
def updateEndpoints : Controller τ :=
  let flags := c.model.endpointDatabase.toList.map
    (fun endpoint => (endpoint.1, endpointActive env c.partitionFilterSet endpoint.2.info))
  { c with
    model := { c.model with endpointDatabase := writeBack c.model.endpointDatabase flags } }

/-- `update_partitions`. -/
def updatePartitions : Controller τ :=
  updateEndpoints env
    { c with backend := c.backend.updateReadersTrackPartitions c.partitionFilterSet }

/-- `check_filter_contains_value`. -/
def checkFilterContainsValue (category value : String) : Bool :=
  (category == "partitions" && c.partitionFilterSet.contains value) ||
    (category == "topic" && c.topicFilterDict.contains value)

/-- The start of the errors that show the format of a filter command. -/
def formatText (command arity : String) : String :=
  "Command <" ++ command ++ "> with " ++ arity ++ " arguments have the following format: " ++
    command

def requiresText (command arity : String) : String :=
  "Command <" ++ command ++ "> requires " ++ arity ++ " arguments."

/-- `filter_command_`. -/
def filterCommand (arguments : List String) : Controller τ × List Output :=
  match arguments with
  | [command] =>
      if command = "filter" then (c, [.error (requiresText command "3 or 4")])
      else (c, [.filters (c.topicFilterDict.toList.filter (fun pair => pair.2 != ""))
        c.partitionFilterSet.toList])
  | [command, operation] =>
      if command = "filter" then (c, [.error (requiresText command "3 or 4")])
      else if operation ≠ "clear" then
        (c, [.error "To clear filters list do: \"filters clear\"."])
      else
        let c := { c with
          partitionFilterSet := ∅, topicFilterDict := c.topicFilterDict.map (fun _ _ => "") }
        ((updatePartitions env c).updateTopics, [])
  | [command, operation, category] =>
      if command = "filters" then (c, [.error (requiresText command "1 or 2")])
      else if operation ≠ "clear" ∨ category ∉ ["partitions", "topic"] then
        (c, [.error "To clear a filter category do: \"filters clear <category>\"."])
      else if category = "partitions" then
        (updatePartitions env { c with partitionFilterSet := ∅ }, [])
      else (updateTopics { c with topicFilterDict := ∅ }, [])
  | [command, operation, category, value] =>
      if command = "filters" then (c, [.error (requiresText command "1 or 2")])
      else if category ∉ ["partitions", "topic"] then
        (c, [.error (formatText command "4" ++ " <add/remove> partitions <filter_str>. OR. " ++
          command ++ " remove topic <topic_name>.")])
      else if operation ∉ ["add", "remove"] ∨ (category = "topic" ∧ operation = "add") then
        if category = "partitions" then
          (c, [.error (formatText command "4" ++ " <add/remove> partitions <filter_str>.")])
        else (c, [.error (formatText command "4" ++ " remove topic <topic_name>.")])
      else if operation = "add" then
        if c.checkFilterContainsValue category value then
          (c, [.error ("Partitions filter already contains filter_str: " ++ value ++ ".")])
        else
          (updatePartitions env
            { c with partitionFilterSet := c.partitionFilterSet.insert value }, [])
      else if !c.checkFilterContainsValue category value then
        (c, [.error ((if category = "partitions" then "Partitions" else "Topic") ++
          " filter do not contains filter_str: " ++ value ++ ".")])
      else if category = "partitions" then
        (updatePartitions env
          { c with partitionFilterSet := c.partitionFilterSet.erase value }, [])
      else
        (updatePartitions env
          { c with topicFilterDict := c.topicFilterDict.insert value "" }, [])
  | [command, operation, category, topicStr, filterStr] =>
      if command = "filters" then (c, [.error (requiresText command "1 or 2")])
      else if !c.configuration.ddsEnabled then
        (c, [.error "RTPS does not support ContentFilteredTopic."])
      else if operation ≠ "set" ∨ category ≠ "topic" then
        (c, [.error (formatText command "5" ++ " set topic <topic_name> <filter_str>.")])
      else
        (updateContentTopicfilter
          { c with topicFilterDict := c.topicFilterDict.insert topicStr filterStr } topicStr, [])
  | _ => (c, [.error ("Command <" ++ arguments.headD "" ++ "> requires less than 5 argument.")])

end Controller

end FastDdsSpy
