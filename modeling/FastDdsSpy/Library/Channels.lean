import FastDdsSpy.Library.PastTime

/-! # Channels

A run of a system emits a list of values. A channel loses nothing: what a run receives from
it, followed by what it still holds, is what was sent. -/

namespace PastTime

variable {ε σ β γ ρ : Type*} {step : σ → ε → σ}

/-! ## Emissions -/

/-- What the events of a run emit, in order. -/
def emitted (step : σ → ε → σ) (out : σ → ε → Option β) : σ → List ε → List β
  | _, [] => []
  | s, e :: es => (out s e).toList ++ emitted step out (step s e) es

@[simp] theorem emitted_nil (out : σ → ε → Option β) (s : σ) : emitted step out s [] = [] := rfl

/-- An emission comes from an event of the run, in the state before it. -/
theorem exists_of_mem_emitted {out : σ → ε → Option β} {s : σ} {es : List ε} {b : β}
    (h : b ∈ emitted step out s es) :
    ∃ pre e, pre ++ [e] <+: es ∧ out (run step s pre) e = some b := by
  induction es generalizing s with
  | nil => simp at h
  | cons e es ih =>
      rw [emitted, List.mem_append] at h
      rcases h with h | h
      · exact ⟨[], e, List.prefix_append [e] es, Option.mem_toList.mp h⟩
      · obtain ⟨pre, e', hpre, hout⟩ := ih h
        refine ⟨e :: pre, e', ?_, hout⟩
        rw [List.cons_append, List.cons_prefix_cons]
        exact ⟨rfl, hpre⟩

/-- An emission that does not depend on the state. -/
theorem emitted_const (step : σ → ε → σ) (f : ε → Option β) (s : σ) (es : List ε) :
    emitted step (fun _ e => f e) s es = es.filterMap f := by
  induction es generalizing s with
  | nil => rfl
  | cons e es ih => cases h : f e <;> simp [emitted, h, ih]

theorem filterMap_emitted (out : σ → ε → Option β) (f : β → Option γ) (s : σ) (es : List ε) :
    (emitted step out s es).filterMap f = emitted step (fun s e => (out s e).bind f) s es := by
  induction es generalizing s with
  | nil => rfl
  | cons e es ih =>
      rw [emitted, emitted, List.filterMap_append, ih]
      cases out s e with
      | none => rfl
      | some b => cases h : f b <;> simp [h]

/-- A step of the concrete system that emits nothing leaves the abstract state as it is, and
any other one takes the abstract step that it emits. -/
theorem run_refines {step' : ρ → β → ρ} {out : σ → ε → Option β} (abs : σ → ρ)
    (hstep : ∀ s e, abs (step s e) = (out s e).elim (abs s) (step' (abs s))) (s : σ)
    (es : List ε) : abs (run step s es) = run step' (abs s) (emitted step out s es) := by
  induction es generalizing s with
  | nil => rfl
  | cons e es ih =>
      rw [run_cons, ih, emitted, run_append, hstep]
      cases out s e <;> rfl

/-- What is received and what is still held is what was held and what is sent. -/
theorem received_append_content (content : σ → List β) {received sent : σ → ε → Option β}
    (hstep : ∀ s e, (received s e).toList ++ content (step s e) =
      content s ++ (sent s e).toList) (s : σ) (es : List ε) :
    emitted step received s es ++ content (run step s es) =
      content s ++ emitted step sent s es := by
  induction es generalizing s with
  | nil => simp
  | cons e es ih =>
      calc emitted step received s (e :: es) ++ content (run step s (e :: es))
          = (received s e).toList ++ (emitted step received (step s e) es ++
              content (run step (step s e) es)) := List.append_assoc _ _ _
        _ = (received s e).toList ++ content (step s e) ++ emitted step sent (step s e) es := by
              rw [ih, List.append_assoc]
        _ = content s ++ emitted step sent s (e :: es) := by
              rw [hstep, List.append_assoc]
              rfl

/-- What has been received was sent by some point of the run: by its end, if nothing is held. -/
theorem exists_prefix_sent {f : ε → Option β} {es : List ε} {received content : List β}
    (h : received ++ content = es.filterMap f) :
    ∃ pre, pre <+: es ∧ pre.filterMap f = received ∧ (content = [] → pre = es) := by
  cases content with
  | nil => exact ⟨es, List.prefix_refl es, by rw [← h, List.append_nil], fun _ => rfl⟩
  | cons b content =>
      obtain ⟨pre, post, hes, hpre, -⟩ := List.filterMap_eq_append_iff.mp h.symm
      exact ⟨pre, ⟨post, hes.symm⟩, hpre, by simp⟩

/-! ## The last emission of a kind -/

theorem latest_filterMap (f : β → Option γ) (g : ε → Option β) (es : List ε) :
    latest f (es.filterMap g) = latest (fun e => (g e).bind f) es := by
  rw [latest, latest, List.filterMap_filterMap]

theorem latest_map (f : β → γ) (g : ε → Option β) (es : List ε) :
    latest (fun e => (g e).map f) es = (latest g es).map f := by
  rw [latest, latest, ← List.map_filterMap, List.getLast?_map]

theorem latest_none (es : List ε) : latest (fun _ => (none : Option β)) es = none := by
  rw [latest, List.filterMap_eq_nil_iff.mpr (fun _ _ => rfl), List.getLast?_nil]

/-- A queue with states `σ`: what is put in comes out in the same order. -/
structure Fifo (β σ : Type*) where
  empty : σ
  push : σ → β → σ
  take : σ → Option (β × σ)
  content : σ → List β
  content_empty : content empty = []
  content_push (q : σ) (b : β) : content (push q b) = content q ++ [b]
  content_of_take_eq_none {q : σ} : take q = none → content q = []
  content_of_take_eq_some {q q' : σ} {b : β} : take q = some (b, q') → content q = b :: content q'

/-- Lists as queues. -/
def Fifo.list (β : Type*) : Fifo β (List β) where
  empty := []
  push q b := q ++ [b]
  take
    | [] => none
    | b :: q => some (b, q)
  content q := q
  content_empty := rfl
  content_push _ _ := rfl
  content_of_take_eq_none {q} h := by cases q <;> simp_all
  content_of_take_eq_some {q q' b} h := by cases q <;> simp_all

end PastTime
