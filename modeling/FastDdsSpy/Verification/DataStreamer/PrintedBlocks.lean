import FastDdsSpy.Model.PrintThreads

/-! # Samples on the terminal

The lines of a sample stay together, and every sample for which a callback is called comes out
once. -/

namespace FastDdsSpy.PrintThreads

open PastTime CriticalSections

variable {ν τ π δ : Type*} {nt : NumberText ν} {ps : PrintSupport τ π δ} {env : External}
  {ts : TypeSupport τ π δ}

/-- The terminal takes the steps that are emitted. -/
theorem view_exec (es : List (Step τ π)) : (exec nt ps env ts es).view =
    run CriticalSections.step init
      (emitted (step nt ps env ts) (viewStep nt ps ts) start es) :=
  run_refines State.view (fun _ _ => rfl) start es

theorem requested_viewStep (s : State τ π) (e : Step τ π) :
    (viewStep nt ps ts s e).bind CriticalSections.Step.requested = delivered nt ps ts s e := by
  cases e with
  | stream e => cases h : delivered nt ps ts s (.stream e) <;> simp [viewStep, h,
      CriticalSections.Step.requested]
  | _ => rfl

theorem requested_eq (es : List (Step τ π)) :
    (emitted (step nt ps env ts) (viewStep nt ps ts) start es).filterMap
      CriticalSections.Step.requested = deliveries nt ps env ts es := by
  rw [filterMap_emitted, deliveries]
  congr
  funext s e
  exact requested_viewStep s e

/-- The block is that of a sample whose call was to call back, by the callback that the streamer
had when the call invoked. -/
def FromCallback (nt : NumberText ν) (ps : PrintSupport τ π δ) (env : External)
    (ts : TypeSupport τ π δ) (es : List (Step τ π)) (block : ℕ × List Text) : Prop :=
  ∃ pre p callback, pre ++ [.stream (.invoke block.1)] <+: es ∧
    (exec nt ps env ts pre).stream.pending block.1 = some p ∧ p.shouldCallCallback = true ∧
    (exec nt ps env ts pre).stream.streamer.callback = some callback ∧
    block.2 = callbackLines nt ps callback p.topic p.dynType p.data

theorem exists_of_delivered {s : State τ π} {e : Step τ π} {block : ℕ × List Text}
    (h : delivered nt ps ts s e = some block) : ∃ p callback,
      e = .stream (.invoke block.1) ∧ s.stream.pending block.1 = some p ∧
      p.shouldCallCallback = true ∧ s.stream.streamer.callback = some callback ∧
      block.2 = callbackLines nt ps callback p.topic p.dynType p.data := by
  unfold delivered at h
  split at h
  · split at h
    · simp at h
    · next call _ p hpending =>
        by_cases hshould : p.shouldCallCallback = true
        · cases hcallback : s.stream.streamer.callback with
          | none => simp [DataStreamer.invokeData, hshould, hcallback] at h
          | some callback =>
              simp only [DataStreamer.invokeData, hshould, hcallback, if_true] at h
              cases h
              exact ⟨p, callback, rfl, hpending, hshould, rfl, rfl⟩
        · simp [DataStreamer.invokeData, hshould] at h
  · simp at h

theorem fromCallback_of_mem {es : List (Step τ π)} {block : ℕ × List Text}
    (h : block ∈ deliveries nt ps env ts es) : FromCallback nt ps env ts es block := by
  obtain ⟨pre, e, hpre, hdelivered⟩ := exists_of_mem_emitted h
  obtain ⟨p, callback, rfl, hpending, hshould, hcallback, hlines⟩ := exists_of_delivered hdelivered
  exact ⟨pre, p, callback, hpre, hpending, hshould, hcallback, hlines⟩

/-- In every interleaving the lines that samples have written are whole blocks and the first part
of one block; each callback that was called has its block there, under way or waiting, and there
are no other blocks. -/
theorem samples_inBlocks (nt : NumberText ν) (ps : PrintSupport τ π δ) (env : External)
    (ts : TypeSupport τ π δ) (es : List (Step τ π)) :
    (∃ printed current,
      InBlocks (deliveries nt ps env ts es) (exec nt ps env ts es).view printed current) ∧
    ∀ block ∈ deliveries nt ps env ts es, FromCallback nt ps env ts es block := by
  refine ⟨?_, fun block h => fromCallback_of_mem h⟩
  rw [view_exec, ← requested_eq]
  exact inBlocks_run _

end FastDdsSpy.PrintThreads
