import Mathlib.Data.List.Basic
import Mathlib.Order.Lattice
import Mathlib.Order.Monotone.Basic

/-! # Key-ordered association lists

An ordered map as the list of its pairs, in strictly increasing order of the keys. -/

namespace OrderedPairs

variable {α β : Type*} [LinearOrder α]

/-- The pairs are in strictly increasing order of their keys. -/
def Sorted (ps : List (α × β)) : Prop := ps.Pairwise (fun p q => p.1 < q.1)

/-- `m[k] = v`: the pair of an existing key is replaced. -/
def assign (k : α) (v : β) : List (α × β) → List (α × β)
  | [] => [(k, v)]
  | p :: ps =>
    if k < p.1 then (k, v) :: p :: ps
    else if k = p.1 then (k, v) :: ps
    else p :: assign k v ps

variable {k : α} {v : β} {ps : List (α × β)}

theorem eq_or_mem_of_mem_assign {p : α × β} (h : p ∈ assign k v ps) :
    p = (k, v) ∨ p ∈ ps := by
  induction ps with
  | nil => simpa [assign] using h
  | cons q ps ih =>
      simp only [assign] at h
      split_ifs at h
      · simpa using h
      · rcases List.mem_cons.mp h with h | h
        · exact .inl h
        · exact .inr (List.mem_cons_of_mem _ h)
      · rcases List.mem_cons.mp h with rfl | h
        · exact .inr List.mem_cons_self
        · rcases ih h with h | h
          · exact .inl h
          · exact .inr (List.mem_cons_of_mem _ h)

theorem Sorted.assign (h : Sorted ps) : Sorted (assign k v ps) := by
  induction ps with
  | nil => exact List.pairwise_singleton _ _
  | cons q ps ih =>
      obtain ⟨hq, hps⟩ := List.pairwise_cons.mp h
      simp only [OrderedPairs.assign]
      split_ifs with hlt heq
      · refine List.pairwise_cons.mpr ⟨?_, h⟩
        intro p hp
        rcases List.mem_cons.mp hp with rfl | hp
        · exact hlt
        · exact hlt.trans (hq p hp)
      · refine List.pairwise_cons.mpr ⟨?_, hps⟩
        intro p hp
        simpa [heq] using hq p hp
      · refine List.pairwise_cons.mpr ⟨?_, ih hps⟩
        intro p hp
        rcases eq_or_mem_of_mem_assign hp with rfl | hp
        · exact lt_of_le_of_ne (not_lt.mp hlt) (Ne.symm heq)
        · exact hq p hp

/-- A key after all others goes to the end. -/
theorem assign_eq_append (h : ∀ p ∈ ps, p.1 < k) : assign k v ps = ps ++ [(k, v)] := by
  induction ps with
  | nil => rfl
  | cons q ps ih =>
      obtain ⟨hq, hps⟩ := List.forall_mem_cons.mp h
      simp only [assign, if_neg hq.not_gt, if_neg hq.ne', ih hps, List.cons_append]

/-- Pairs that are assigned in the order of their keys stay in this order. -/
theorem Sorted.assign_eq_append {qs : List (α × β)} (h : Sorted (ps ++ (k, v) :: qs)) :
    OrderedPairs.assign k v ps = ps ++ [(k, v)] := by
  refine OrderedPairs.assign_eq_append ?_
  intro p hp
  exact (List.pairwise_append.mp h).2.2 p hp _ List.mem_cons_self

/-- Keys are replaced by others in the same order. -/
theorem map_assign_of_strictMono {α' γ : Type*} [LinearOrder α'] {g : α → α'} (hg : StrictMono g)
    (f : β → γ) (k : α) (v : β) (ps : List (α × β)) :
    (assign k v ps).map (fun p => (g p.1, f p.2)) =
      assign (g k) (f v) (ps.map fun p => (g p.1, f p.2)) := by
  induction ps with
  | nil => rfl
  | cons p ps ih =>
      simp only [assign, List.map_cons, hg.lt_iff_lt, hg.injective.eq_iff]
      split_ifs
      · rfl
      · rfl
      · rw [List.map_cons, ih]

theorem Sorted.map {γ : Type*} (f : β → γ) (h : Sorted ps) :
    Sorted (ps.map fun p => (p.1, f p.2)) :=
  List.pairwise_map.mpr h

end OrderedPairs
