import FastDdsSpy.Library.PastTime
import FastDdsSpy.Model.Controller

/-! # The running tool

Discovery records, types and samples reach the model from the network, commands reach
the controller from the user. Each event runs to completion. -/

namespace FastDdsSpy

open PastTime

/-- `CommandValue`. -/
inductive CommandValue
  | help | exit | version | participant | datawriter | datareader | topic | print | errorInput
  | filter
  deriving DecidableEq, Repr

inductive Event (τ π : Type*)
  | newParticipantInfo (info : ParticipantInfo)
  | newEndpointInfo (endpointInfo : EndpointInfoData)
  | addSchema (dynamicType : τ)
  | addData (topic : DdsTopic) (data : RtpsPayloadData π)
  | input (command : CommandValue) (arguments : List String)

/-- The tool. `printing` tells that `print_command_` waits for the user to press enter. -/
structure Spy (τ : Type*) where
  controller : Controller τ
  printing : Bool

namespace Spy

variable {τ π δ : Type*} (env : External) (ts : TypeSupport τ π δ)

/-- `run_command_`. The texts of `help` and `version` are left out. -/
def runCommand (s : Spy τ) (command : CommandValue) (arguments : List String) :
    Spy τ × List Output :=
  let c := s.controller
  match command with
  | .participant => (s, c.participantsCommand env arguments)
  | .datareader => (s, c.readersCommand env arguments)
  | .datawriter => (s, c.writersCommand env arguments)
  | .topic => (s, c.topicsCommand env arguments)
  | .print =>
      let (controller, outputs, printing) := c.printCommand env arguments
      (⟨controller, printing⟩, outputs)
  | .filter =>
      let (controller, outputs) := c.filterCommand env arguments
      ({ s with controller := controller }, outputs)
  | .errorInput => (s, [.error ("<" ++ arguments.headD "" ++
      "> is not a known command. Use <help> command to see valid commands and arguments.")])
  | .help | .version | .exit => (s, [])

/-- A line of input: while data is printed, whatever it is stops the printing. -/
def readInput (s : Spy τ) (command : CommandValue) (arguments : List String) :
    Spy τ × List Output :=
  if s.printing then (⟨s.controller.stopPrinting, false⟩, [])
  else s.runCommand env command arguments

/-- The tool with its model replaced. -/
def setModel (s : Spy τ) (model : SpyModel τ StreamCallback) : Spy τ :=
  { s with controller := { s.controller with model := model } }

def step (s : Spy τ) : Event τ π → Spy τ
  | .newParticipantInfo info => s.setModel (s.controller.model.newParticipantInfo info)
  | .newEndpointInfo endpointInfo => s.setModel (s.controller.model.newEndpointInfo endpointInfo)
  | .addSchema dynamicType => s.setModel { s.controller.model with
      toDataStreamer := s.controller.model.toDataStreamer.addSchema ts dynamicType }
  | .addData topic data => s.setModel { s.controller.model with
      toDataStreamer := (s.controller.model.toDataStreamer.addData env ts topic data).1 }
  | .input command arguments => (s.readInput env command arguments).1

def start (configuration : Configuration) : Spy τ := ⟨.start configuration, false⟩

/-- The tool after a sequence of events, from its start. -/
def exec (configuration : Configuration) (es : List (Event τ π)) : Spy τ :=
  run (step env ts) (start configuration) es

end Spy

end FastDdsSpy
