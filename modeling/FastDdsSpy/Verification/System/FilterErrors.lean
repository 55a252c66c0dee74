import FastDdsSpy.Verification.System.TopicFilters

/-! # Filter commands that fail

A filter command that shows an error has changed nothing, and no filter command leaves the
backend with other partitions than the controller has. -/

namespace FastDdsSpy.Spy

variable {τ π δ : Type*}

/-- What holds of a filter command: an error means that nothing changed, and the backend
has been given the partition filters that the controller ends up with. -/
structure AllOrNothing (env : External) (c : Controller τ) (arguments : List String) : Prop where
  unchanged : ∀ text, .error text ∈ (c.filterCommand env arguments).2 →
    (c.filterCommand env arguments).1 = c
  partitions_eq : (c.filterCommand env arguments).1.backend.partitions =
    (c.filterCommand env arguments).1.partitionFilterSet

/-- In every reachable state, every filter command is all or nothing. -/
theorem filterCommand_allOrNothing (env : External) (ts : TypeSupport τ π δ)
    (cfg : Configuration) (es : List (Event τ π)) (command : String) (arguments : List String) :
    AllOrNothing env (exec env ts cfg es).controller (command :: arguments) := by
  have hagree := partitions_exec env ts cfg es
  have hfst := Controller.filterCommand_fst env (exec env ts cfg es).controller
    (command :: arguments)
  cases ha : (exec env ts cfg es).controller.filterAction (command :: arguments) with
  | none =>
      rw [ha] at hfst
      exact ⟨fun _ _ => hfst, by rw [hfst, hagree]⟩
  | some action =>
      rw [ha] at hfst
      have hsnd := Controller.filterCommand_snd_of_action env ha
      refine ⟨fun text herror => ?_, ?_⟩
      · rw [hsnd] at herror
        simp at herror
      · rw [hfst]
        exact Controller.partitions_perform env hagree action

end FastDdsSpy.Spy
