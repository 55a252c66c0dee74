import Mathlib.Data.List.Basic

/-! # Searches through an ordered list

The first hit of a search through a list in increasing order is the least one. -/

namespace OrderedSearch

open Std

variable {α β : Type*} {cmp : α → α → Ordering} [ReflCmp cmp]

theorem exists_least_of_findSome? {xs : List α} (hsorted : xs.Pairwise (fun a b => cmp a b = .lt))
    {f : α → Option β} {b : β} (h : xs.findSome? f = some b) :
    ∃ a ∈ xs, f a = some b ∧ ∀ c ∈ xs, (f c).isSome → (cmp a c).isLE := by
  induction xs with
  | nil => simp at h
  | cons x xs ih =>
      obtain ⟨hx, hxs⟩ := List.pairwise_cons.mp hsorted
      rw [List.findSome?_cons] at h
      cases hf : f x with
      | some b' =>
          rw [hf] at h
          refine ⟨x, List.mem_cons_self, hf.trans h, ?_⟩
          intro c hc _
          rcases List.mem_cons.mp hc with rfl | hc
          · have hself : cmp c c = .eq := ReflCmp.compare_self
            rw [hself]
            rfl
          · rw [hx c hc]
            rfl
      | none =>
          rw [hf] at h
          obtain ⟨a, ha, hfa, hleast⟩ := ih hxs h
          refine ⟨a, List.mem_cons_of_mem x ha, hfa, ?_⟩
          intro c hc hsome
          rcases List.mem_cons.mp hc with rfl | hc
          · simp [hf] at hsome
          · exact hleast c hc hsome

end OrderedSearch
