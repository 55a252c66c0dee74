import Mathlib.Algebra.BigOperators.Group.List.Basic
import Mathlib.Algebra.Ring.Nat
import Mathlib.Data.List.Basic

/-! # Counting by classes

Disjoint classes that cover a list split its length, and two selections, one inside the
other, have the same count only when they are the same. -/

namespace Counting

variable {α β : Type*}

/-- A selection inside another one has its count only if it is the same selection. -/
theorem countP_eq_countP_iff {xs : List α} {p q : α → Bool} (h : ∀ x ∈ xs, p x → q x) :
    xs.countP p = xs.countP q ↔ ∀ x ∈ xs, q x → p x := by
  induction xs with
  | nil => simp
  | cons x xs ih =>
      obtain ⟨hx, hxs⟩ := List.forall_mem_cons.mp h
      have hle : xs.countP p ≤ xs.countP q := List.countP_mono_left hxs
      rw [List.forall_mem_cons, ← ih hxs, List.countP_cons, List.countP_cons]
      cases hp : p x <;> cases hq : q x
      · simp
      · simp
        omega
      · simp [hp, hq] at hx
      · simp

section Classes

variable {R : α → β → Bool} {classes : List β}

/-- What belongs to one of the classes belongs to one only. -/
theorem countP_class (hdisjoint : classes.Pairwise (fun b c => ∀ a, R a b → ¬ R a c)) {a : α}
    (hcover : ∃ b ∈ classes, R a b) : classes.countP (R a) = 1 := by
  induction classes with
  | nil => simp at hcover
  | cons b classes ih =>
      obtain ⟨hhead, htail⟩ := List.pairwise_cons.mp hdisjoint
      by_cases hb : R a b = true
      · have hnone : classes.countP (R a) = 0 :=
          List.countP_eq_zero.mpr fun c hc => hhead c hc a hb
        rw [List.countP_cons_of_pos hb, hnone]
      · rw [List.countP_cons_of_neg hb]
        obtain ⟨c, hc, hR⟩ := hcover
        rcases List.mem_cons.mp hc with rfl | hc
        · exact absurd hR hb
        · exact ih htail ⟨c, hc, hR⟩

theorem sum_map_toNat (p : β → Bool) :
    (classes.map (fun b => (p b).toNat)).sum = classes.countP p := by
  induction classes with
  | nil => rfl
  | cons b classes ih => cases hb : p b <;> simp [ih, hb, Nat.add_comm]

/-- The counts of disjoint classes that cover the list add up to its length. -/
theorem sum_countP_classes (hdisjoint : classes.Pairwise (fun b c => ∀ a, R a b → ¬ R a c))
    {xs : List α} (hcover : ∀ a ∈ xs, ∃ b ∈ classes, R a b) :
    (classes.map (fun b => xs.countP (fun a => R a b))).sum = xs.length := by
  induction xs with
  | nil => simp
  | cons a xs ih =>
      obtain ⟨ha, hxs⟩ := List.forall_mem_cons.mp hcover
      have hcons : ∀ b, (a :: xs).countP (fun a => R a b) =
          xs.countP (fun a => R a b) + (R a b).toNat := by
        intro b
        cases hb : R a b <;> simp [hb]
      simp only [hcons, List.sum_map_add, ih hxs, sum_map_toNat, countP_class hdisjoint ha,
        List.length_cons]

end Classes

end Counting
