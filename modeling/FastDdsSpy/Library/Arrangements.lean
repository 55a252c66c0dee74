import Mathlib.Data.List.Duplicate
import Mathlib.Data.List.Perm.Subperm

/-! # Arrangements of a list

A function of two entries of a list, one at a fixed position and the last one, takes the
same value on all the arrangements of the list only if it does so on any two entries. -/

namespace Arrangements

open List

variable {α β : Type*}

/-- Two different members are two entries. -/
theorem exists_perm_of_ne {xs : List α} {a b : α} (ha : a ∈ xs) (hb : b ∈ xs) (hne : a ≠ b) :
    ∃ rest, xs ~ a :: b :: rest := by
  obtain ⟨front, back, rfl⟩ := append_of_mem ha
  have hb' : b ∈ front ++ back := by
    simp only [mem_append, mem_cons] at hb ⊢
    rcases hb with hb | hb | hb
    · exact .inl hb
    · exact absurd hb.symm hne
    · exact .inr hb
  obtain ⟨front', back', heq⟩ := append_of_mem hb'
  refine ⟨front' ++ back', perm_middle.trans (Perm.cons a ?_)⟩
  rw [heq]
  exact perm_middle

/-- If two positions have the same image, they are two entries. -/
theorem exists_perm_of_not_nodup_map {f : α → β} {xs : List α} (h : ¬ (xs.map f).Nodup) :
    ∃ a b rest, xs ~ a :: b :: rest ∧ f a = f b := by
  obtain ⟨image, hdup⟩ := exists_duplicate_iff_not_nodup.mpr h
  obtain ⟨entries, hsub, himage⟩ := sublist_map_iff.mp (duplicate_iff_sublist.mp hdup)
  have hlength : entries.length = 2 := by
    have heq := congrArg length himage
    simpa using heq.symm
  obtain ⟨a, b, rfl⟩ := length_eq_two.mp hlength
  obtain ⟨rest, hperm⟩ := hsub.exists_perm_append
  simp only [map_cons, map_nil, cons.injEq, and_true] at himage
  exact ⟨a, b, rest, hperm, himage.1.symm.trans himage.2⟩

/-- Any two entries can be brought to a position before the last one and to the last. -/
theorem exists_arrangement {xs rest : List α} {a b : α} (h : xs ~ a :: b :: rest) {k : ℕ}
    (hk : k + 1 < xs.length) :
    ∃ ys, ys ~ xs ∧ ys[k]? = some a ∧ ys.getLast? = some b := by
  have hle : k ≤ rest.length := by
    have hlength := h.length_eq
    simp only [length_cons] at hlength
    omega
  refine ⟨rest.take k ++ a :: rest.drop k ++ [b], ?_, ?_, getLast?_concat⟩
  · calc rest.take k ++ a :: rest.drop k ++ [b]
        ~ b :: (rest.take k ++ a :: rest.drop k) := perm_append_singleton _ _
      _ ~ b :: a :: (rest.take k ++ rest.drop k) := Perm.cons b perm_middle
      _ = b :: a :: rest := by rw [take_append_drop]
      _ ~ a :: b :: rest := Perm.swap a b rest
      _ ~ xs := h.symm
  · rw [append_assoc, getElem?_append_right (length_take_le k rest)]
    simp [length_take_of_le hle]

end Arrangements
