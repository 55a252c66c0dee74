import FastDdsSpy.Model.System

/-! # The command loop

The words of the commands, the loop of `Controller::run`, and what the user sees. A line of input
comes as the words on it. -/

namespace FastDdsSpy

open PastTime

/-- `CommandValue` with its `empty_command`. -/
inductive ParsedCommand
  | emptyCommand
  | command (value : CommandValue)
  deriving DecidableEq, Repr

/-- The table of `CommandBuilder`. -/
def commandBuilder : List (ParsedCommand × List String) :=
  [(.emptyCommand, [""]),
    (.command .help, ["help", "h", "H", "man"]),
    (.command .exit, ["quit", "q", "Q", "quit()", "exit", "x", "exit()"]),
    (.command .version, ["version", "v", "V"]),
    (.command .participant, ["participant", "participants", "p", "P"]),
    (.command .datawriter, ["datawriter", "datawriters", "w", "W", "writer", "writers",
      "publication", "publications"]),
    (.command .datareader, ["datareader", "datareaders", "r", "R", "reader", "readers",
      "subscription", "subscriptions"]),
    (.command .topic, ["topic", "topics", "t", "T"]),
    (.command .print, ["echo", "print", "show", "s", "S"]),
    (.command .filter, ["filter", "filters", "partitions", "f", "F"])]

/-- `string_to_enumeration`. -/
def stringToEnumeration (word : String) : Option ParsedCommand :=
  (commandBuilder.find? fun entry => entry.2.contains word).map Prod.fst

/-- `parse_as_command`, and `wait_next_command` on the words of a line. -/
def parseAsCommand (arguments : List String) : ParsedCommand :=
  (stringToEnumeration (arguments.headD "")).getD (.command .errorInput)

/-- What is written to the terminal: the output of a command, or a sample by a callback. -/
inductive Shown (τ π : Type*)
  | output (output : Output)
  | data (callback : StreamCallback) (topic : DdsTopic) (dynType : τ) (data : RtpsPayloadData π)

inductive ToolEvent (τ π : Type*)
  | newParticipantInfo (info : ParticipantInfo)
  | newEndpointInfo (endpointInfo : EndpointInfoData)
  | addSchema (dynamicType : τ)
  | addData (topic : DdsTopic) (data : RtpsPayloadData π)
  | line (arguments : List String)

/-- The tool, until `run` returns. -/
structure Tool (τ : Type*) where
  spy : Spy τ
  running : Bool

namespace Tool

variable {τ π δ : Type*} (env : External) (ts : TypeSupport τ π δ)

/-- `run_command_`, where an empty command falls to the default case. -/
def runCommand (s : Spy τ) (command : ParsedCommand) (arguments : List String) :
    Spy τ × List Output :=
  match command with
  | .emptyCommand => (s, [])
  | .command value => s.runCommand env value arguments

/-- A line of input: `wait_something` takes it while data is printed, whatever it says, and else
it is the next command of the loop. -/
def readLine (t : Tool τ) (arguments : List String) : Tool τ × List (Shown τ π) :=
  if t.spy.printing then (⟨⟨t.spy.controller.stopPrinting, false⟩, true⟩, [])
  else
    let command := parseAsCommand arguments
    let result := runCommand env t.spy command arguments
    (⟨result.1, command ≠ .command .exit⟩, result.2.map .output)

/-- What a sample writes to the terminal. -/
def showDelivery : Delivery τ π StreamCallback → List (Shown τ π)
  | .called callback topic dynType data => [.data callback topic dynType data]
  | .none | .nullCallback => []

/-- An event, with what it writes. Nothing happens after `run` has returned. -/
def step (t : Tool τ) (e : ToolEvent τ π) : Tool τ × List (Shown τ π) :=
  if t.running then
    match e with
    | .newParticipantInfo info =>
        ({ t with spy := t.spy.step env ts (.newParticipantInfo info) }, [])
    | .newEndpointInfo endpointInfo =>
        ({ t with spy := t.spy.step env ts (.newEndpointInfo endpointInfo) }, [])
    | .addSchema dynamicType => ({ t with spy := t.spy.step env ts (.addSchema dynamicType) }, [])
    | .addData topic data => ({ t with spy := t.spy.step env ts (.addData topic data) },
        showDelivery (t.spy.controller.model.toDataStreamer.addData env ts topic data).2)
    | .line arguments => t.readLine env arguments
  else (t, [])

def start (configuration : Configuration) : Tool τ := ⟨.start configuration, true⟩

/-- The tool after a sequence of events, from its start. -/
def exec (configuration : Configuration) (es : List (ToolEvent τ π)) : Tool τ :=
  run (fun t e => (step env ts t e).1) (start configuration) es

end Tool

end FastDdsSpy
