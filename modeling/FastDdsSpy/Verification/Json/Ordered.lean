import FastDdsSpy.Model.Json

/-! # Parsed values are ordered

What the parser has built so far keeps its objects in the order of their keys in every
iteration. -/

namespace FastDdsSpy.Json

variable {ν : Type*} {σ χ : Type} [LinearOrder σ] {stack : List (Frame ν σ)}

def Frame.Ordered : Frame ν σ → Prop
  | .array values => ∀ v ∈ values, v.Ordered
  | .object members _ => OrderedPairs.Sorted members ∧ ∀ m ∈ members, m.2.Ordered

structure ParserState.Ordered (s : ParserState ν σ χ) : Prop where
  value {v} (h : s.control = .value v) : v.Ordered
  frames : ∀ f ∈ s.stack, f.Ordered

def Flow.Ordered : Flow ν σ χ → Prop
  | .next s => s.Ordered
  | .done v _ => v.Ordered
  | .error => True

/-- The next iteration before a value. -/
theorem token_ordered (token : Token ν σ) (input : List χ) (h : ∀ f ∈ stack, f.Ordered) :
    (⟨.token token, input, stack⟩ : ParserState ν σ χ).Ordered where
  value hv := by cases hv
  frames := h

/-- A value at the end of an open array. -/
theorem Frame.Ordered.append {values : List (Json ν σ)} {v : Json ν σ}
    (h : (Frame.array values).Ordered) (hv : v.Ordered) :
    (Frame.array (values ++ [v])).Ordered := by
  intro w hw
  rcases List.mem_append.mp hw with hw | hw
  · exact h w hw
  · rwa [List.mem_singleton.mp hw]

/-- A value for the key of an open object. -/
theorem Frame.Ordered.assign {members : List (σ × Json ν σ)} {key : σ} {v : Json ν σ}
    (h : (Frame.object members key).Ordered) (hv : v.Ordered) (next : σ) :
    (Frame.object (OrderedPairs.assign key v members) next).Ordered := by
  refine ⟨h.1.assign, ?_⟩
  intro m hm
  rcases OrderedPairs.eq_or_mem_of_mem_assign hm with rfl | hm
  · exact hv
  · exact h.2 m hm

/-- The next iteration after a container is closed. -/
theorem closed_ordered {v : Json ν σ} (input : List χ) (hv : v.Ordered)
    (hstack : ∀ f ∈ stack, f.Ordered) : (⟨.value v, input, stack⟩ : ParserState ν σ χ).Ordered where
  value h := by
    cases h
    exact hv
  frames := hstack

section Iterations

variable [TextUnit χ] {sc : Scanner ν σ χ}

theorem evaluate_ordered {v : Json ν σ} (input : List χ) (hv : v.Ordered)
    (hstack : ∀ f ∈ stack, f.Ordered) : (evaluate sc v input stack).Ordered := by
  unfold evaluate
  split
  · exact hv
  · obtain ⟨hframe, hrest⟩ := List.forall_mem_cons.mp hstack
    have happend := hframe.append hv
    split
    · exact token_ordered _ _ (List.forall_mem_cons.mpr ⟨happend, hrest⟩)
    · exact closed_ordered _ (.array happend) hrest
    · trivial
  · next members key stack =>
      obtain ⟨hframe, hrest⟩ := List.forall_mem_cons.mp hstack
      have hassign := hframe.assign hv
      split
      · split
        · exact token_ordered _ _ (List.forall_mem_cons.mpr ⟨hassign _, hrest⟩)
        · trivial
      · exact closed_ordered _ (.object (hassign key).1 (hassign key).2) hrest
      · trivial

theorem step_ordered {s : ParserState ν σ χ} (h : s.Ordered) : (step sc s).Ordered := by
  have hobject (key : σ) : (Frame.object ([] : List (σ × Json ν σ)) key).Ordered :=
    ⟨.nil, by simp⟩
  have hempty : (Json.object ([] : List (σ × Json ν σ))).Ordered := .object .nil (by simp)
  have harray : (Frame.array ([] : List (Json ν σ))).Ordered := by simp [Frame.Ordered]
  unfold step
  split
  · split
    · exact evaluate_ordered _ hempty h.frames
    · split
      · exact token_ordered _ _ (List.forall_mem_cons.mpr ⟨hobject _, h.frames⟩)
      · trivial
  · split
    · exact evaluate_ordered _ (.array harray) h.frames
    · exact token_ordered _ _ (List.forall_mem_cons.mpr ⟨harray, h.frames⟩)
  · exact evaluate_ordered _ (.primitive _) h.frames
  · trivial
  · next hvalue => exact evaluate_ordered _ (h.value hvalue) h.frames

theorem exec_ordered {s : ParserState ν σ χ} {v : Json ν σ} {rest : List χ} (h : s.Ordered)
    (hexec : exec sc s = some (v, rest)) : v.Ordered := by
  fun_induction exec sc s with
  | case1 s t hstep ih =>
      have hnext : (step sc s).Ordered := step_ordered h
      rw [hstep] at hnext
      exact ih hnext hexec
  | case2 s value input hstep =>
      have hdone : (step sc s).Ordered := step_ordered h
      rw [hstep] at hdone
      cases hexec
      exact hdone
  | case3 => simp at hexec

theorem parseFrom_ordered {input : List χ} {j : Json ν σ} (h : parseFrom sc input = some j) :
    j.Ordered := by
  have hstart : (getToken sc input []).Ordered := token_ordered _ _ (by simp)
  unfold parseFrom at h
  split at h
  · next hexec =>
      split at h
      · cases h
        exact exec_ordered hstart hexec
      · simp at h
  · simp at h

end Iterations

theorem parse_ordered {nt : NumberText ν} {text : Text} {j : Json ν} (h : parse nt text = some j) :
    j.Ordered :=
  parseFrom_ordered h

end FastDdsSpy.Json
