import FastDdsSpy.Library.CriticalSections
import FastDdsSpy.Model.Controller
import FastDdsSpy.Model.JsonFormat
import FastDdsSpy.Model.StreamThreads

/-! # Concurrent printing of data

A data thread that calls back prints its sample line by line under `view_mutex_`. The command
thread prints without it. -/

namespace FastDdsSpy

/-- The parts of the callbacks that are outside the repository: what `create_data` and
`deserialize` leave in the dynamic data, its JSON, and the YAML text of a `DdsDataData`. -/
structure PrintSupport (τ π δ : Type*) where
  getDynamicData : τ → RtpsPayloadData π → δ
  jsonSerialize : δ → Option Text
  dataInfoText : DdsTopic → RtpsPayloadData π → Text

namespace PrintThreads

open PastTime DataStreamer

variable {ν τ π δ : Type*} (nt : NumberText ν) (ps : PrintSupport τ π δ)

/-- The end of both callbacks. Nothing more is printed when `json_serialize` fails, and when
`format_json_arrays_inline` throws. -/
def dataLines (dynType : τ) (data : RtpsPayloadData π) : List Text :=
  match ps.jsonSerialize (ps.getDynamicData dynType data) with
  | none => []
  | some json =>
    match formatJsonArraysInline nt json 4 with
    | none => []
    | some pretty => [pretty, ['-', '-', '-', '\n']]

/-- The lines that a callback prints, each followed by a line break. -/
def callbackLines (callback : StreamCallback) (topic : DdsTopic) (dynType : τ)
    (data : RtpsPayloadData π) : List Text :=
  match callback with
  | .dataStreamCallback => ['-', '-', '-'] :: dataLines nt ps dynType data
  | .dataStreamCallbackVerbose =>
      ps.dataInfoText topic data :: ['d', 'a', 't', 'a', ':', '\n', '-', '-', '-'] ::
        dataLines nt ps dynType data

/-- The streamer with its threads, and the terminal with the lock for it. -/
structure State (τ π : Type*) where
  stream : StreamThreads.State τ π StreamCallback
  view : CriticalSections.State ℕ Text

/-- A step of the streamer, of a callback under the lock, or of the command thread. -/
inductive Step (τ π : Type*)
  | stream (e : StreamThreads.Step τ π StreamCallback)
  | lockView (block : ℕ × List Text)
  | print
  | unlockView
  | show (text : Text)

variable (env : External) (ts : TypeSupport τ π δ)

/-- The callback that a step of the streamer calls: the number of the call and its lines. -/
def delivered (s : State τ π) : Step τ π → Option (ℕ × List Text)
  | .stream (.invoke call) =>
      match s.stream.pending call with
      | none => none
      | some p =>
        match (invokeData ts s.stream.streamer p).2 with
        | .called callback topic dynType data =>
            some (call, callbackLines nt ps callback topic dynType data)
        | .none | .nullCallback => none
  | _ => none

/-- The step of the terminal that a step takes. -/
def viewStep (s : State τ π) (e : Step τ π) : Option (CriticalSections.Step ℕ Text) :=
  match e with
  | .stream _ => (delivered nt ps ts s e).map .request
  | .lockView block => some (.enter block)
  | .print => some .write
  | .unlockView => some .leave
  | .show text => some (.other text)

def step (s : State τ π) (e : Step τ π) : State τ π where
  stream :=
    match e with
    | .stream e => StreamThreads.step env ts s.stream e
    | _ => s.stream
  view := (viewStep nt ps ts s e).elim s.view (CriticalSections.step s.view)

def start : State τ π := ⟨StreamThreads.init, CriticalSections.init⟩

/-- The state after a sequence of steps, from the start. -/
def exec (es : List (Step τ π)) : State τ π := run (step nt ps env ts) start es

/-- The callbacks called in a run, in order. -/
def deliveries (es : List (Step τ π)) : List (ℕ × List Text) :=
  emitted (step nt ps env ts) (delivered nt ps ts) start es

end PrintThreads

end FastDdsSpy
