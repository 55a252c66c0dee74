import FastDdsSpy.Library.Counting
import Mathlib.Data.List.Induction
import Mathlib.Data.List.Nodup

/-! # Grouping by key

The entries of a list are grouped by a key: the groups stand in the order in which their keys
first occur, each with its first entry and its size. -/

namespace GroupByKey

open Counting

variable {α κ : Type*} [DecidableEq κ] {key : α → κ}

/-- The entries of the list that have a key no entry before them has. -/
def firsts (key : α → κ) : List α → List α
  | [] => []
  | x :: xs => x :: (firsts key xs).filter (fun y => key y ≠ key x)

theorem key_mem_map_firsts {xs : List α} {k : κ} :
    k ∈ (firsts key xs).map key ↔ k ∈ xs.map key := by
  induction xs with
  | nil => rfl
  | cons x xs ih =>
      rw [firsts, List.map_cons, List.map_cons, List.mem_cons, List.mem_cons, ← ih]
      refine or_congr_right' fun hne => ?_
      simp only [List.mem_map, List.mem_filter, decide_eq_true_eq]
      constructor
      · rintro ⟨y, ⟨hy, -⟩, rfl⟩
        exact ⟨y, hy, rfl⟩
      · rintro ⟨y, hy, rfl⟩
        exact ⟨y, ⟨hy, hne⟩, rfl⟩

theorem nodup_map_firsts (xs : List α) : ((firsts key xs).map key).Nodup := by
  induction xs with
  | nil => exact List.nodup_nil
  | cons x xs ih =>
      rw [firsts, List.map_cons, List.nodup_cons]
      refine ⟨?_, ih.sublist (List.filter_sublist.map key)⟩
      simp

/-- Each representative is what a search for its key finds. -/
theorem find?_eq_of_mem_firsts {xs : List α} {y : α} (h : y ∈ firsts key xs) :
    xs.find? (fun x => key x == key y) = some y := by
  induction xs with
  | nil => simp [firsts] at h
  | cons x xs ih =>
      rw [firsts, List.mem_cons, List.mem_filter] at h
      rcases h with rfl | ⟨hmem, hne⟩
      · simp
      · have hkey : (key x == key y) = false := beq_false_of_ne (of_decide_eq_true hne).symm
        rw [List.find?_cons, hkey]
        exact ih hmem

/-- The keys of the representatives first occur in their order. -/
theorem pairwise_findIdx_firsts (xs : List α) : (firsts key xs).Pairwise (fun y y' =>
    xs.findIdx (fun x => key x == key y) < xs.findIdx (fun x => key x == key y')) := by
  induction xs with
  | nil => exact .nil
  | cons x xs ih =>
      have hfind {y : α} (hy : y ∈ (firsts key xs).filter (fun y => key y ≠ key x)) :
          (x :: xs).findIdx (fun x => key x == key y) =
            xs.findIdx (fun x => key x == key y) + 1 := by
        have hne := of_decide_eq_true (List.mem_filter.mp hy).2
        rw [List.findIdx_cons, beq_false_of_ne hne.symm]
        rfl
      refine List.pairwise_cons.mpr ⟨fun y hy => ?_, ?_⟩
      · rw [hfind hy, List.findIdx_cons]
        simp
      · refine (ih.filter _).imp_of_mem fun hy hy' hlt => ?_
        rw [hfind hy, hfind hy']
        omega

/-- A further entry is a representative if its key is new. -/
theorem firsts_concat (xs : List α) (x : α) : firsts key (xs ++ [x]) =
    if key x ∈ xs.map key then firsts key xs else firsts key xs ++ [x] := by
  induction xs with
  | nil => rfl
  | cons y xs ih =>
      rw [List.cons_append, firsts, ih, List.map_cons]
      by_cases hmem : key x ∈ xs.map key
      · rw [if_pos hmem, if_pos (List.mem_cons_of_mem _ hmem), firsts]
      · rw [if_neg hmem, List.filter_append]
        by_cases hxy : key x = key y
        · rw [if_pos (by simp [hxy])]
          simp [firsts, hxy]
        · rw [if_neg (by simpa [hxy] using hmem)]
          simp [firsts, hxy]

/-- The first entry of each key, with the number of entries that have this key. -/
def groups (key : α → κ) (xs : List α) : List (α × ℕ) :=
  (firsts key xs).map (fun y => (y, xs.countP (fun x => key x == key y)))

/-- A further entry with a new key opens a group. -/
theorem groups_concat_of_not_mem {xs : List α} {x : α} (h : key x ∉ xs.map key) :
    groups key (xs ++ [x]) = groups key xs ++ [(x, 1)] := by
  have hnone : xs.countP (fun y => key y == key x) = 0 := by
    refine List.countP_eq_zero.mpr fun y hy heq => h ?_
    exact List.mem_map.mpr ⟨y, hy, beq_iff_eq.mp heq⟩
  rw [groups, firsts_concat, if_neg h, List.map_append, groups]
  congr 1
  · refine List.map_congr_left fun y hy => ?_
    have hne : key x ≠ key y := by
      intro heq
      exact h (heq ▸ key_mem_map_firsts.mp (List.mem_map_of_mem hy))
    simp [hne]
  · simp [hnone]

/-- A further entry with a known key is counted in its group. -/
theorem groups_concat_of_mem {xs : List α} {x : α} (h : key x ∈ xs.map key) :
    groups key (xs ++ [x]) = (groups key xs).map
      (fun group => (group.1, if key x = key group.1 then group.2 + 1 else group.2)) := by
  rw [groups, firsts_concat, if_pos h, groups, List.map_map]
  refine List.map_congr_left fun y _ => ?_
  by_cases heq : key x = key y <;> simp [heq]

/-! ## What a grouping is -/

/-- The groups of a list: one for each key, in the order in which the keys first occur, with
the first entry of the key and the number of its entries. -/
structure IsGrouping (key : α → κ) (xs : List α) (gs : List (α × ℕ)) : Prop where
  nodup : (gs.map (fun group => key group.1)).Nodup
  covers : ∀ x ∈ xs, ∃ group ∈ gs, key group.1 = key x
  first : ∀ group ∈ gs, xs.find? (fun x => key x == key group.1) = some group.1
  size : ∀ group ∈ gs, group.2 = xs.countP (fun x => key x == key group.1)
  in_order : gs.Pairwise (fun group group' => xs.findIdx (fun x => key x == key group.1) <
    xs.findIdx (fun x => key x == key group'.1))

theorem isGrouping_groups (xs : List α) : IsGrouping key xs (groups key xs) := by
  refine ⟨?_, fun x hx => ?_, fun group hgroup => ?_, fun group hgroup => ?_, ?_⟩
  · rw [groups, List.map_map]
    exact nodup_map_firsts xs
  · have hkey : key x ∈ (firsts key xs).map key :=
      key_mem_map_firsts.mpr (List.mem_map_of_mem hx)
    obtain ⟨y, hy, heq⟩ := List.mem_map.mp hkey
    exact ⟨_, List.mem_map_of_mem hy, heq⟩
  · obtain ⟨y, hy, rfl⟩ := List.mem_map.mp hgroup
    exact find?_eq_of_mem_firsts hy
  · obtain ⟨y, -, rfl⟩ := List.mem_map.mp hgroup
    rfl
  · rw [groups, List.pairwise_map]
    exact pairwise_findIdx_firsts xs

example : groups (· % 3) [4, 2, 1, 5, 3] = [(4, 2), (2, 2), (3, 1)] := by decide

/-- The sizes of the groups add up to the length of the list. -/
theorem IsGrouping.sum_size {xs : List α} {gs : List (α × ℕ)} (h : IsGrouping key xs gs) :
    (gs.map Prod.snd).sum = xs.length := by
  rw [List.map_congr_left h.size]
  apply sum_countP_classes (R := fun x (group : α × ℕ) => key x == key group.1)
  · refine (List.pairwise_map.mp h.nodup).imp fun hne x hx hy => hne ?_
    exact (beq_iff_eq.mp hx).symm.trans (beq_iff_eq.mp hy)
  · intro x hx
    obtain ⟨group, hgroup, heq⟩ := h.covers x hx
    exact ⟨group, hgroup, beq_iff_eq.mpr heq.symm⟩

end GroupByKey
