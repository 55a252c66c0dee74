import Mathlib.Data.List.TakeWhile
import Mathlib.Data.Int.Basic

/-! # Decimal numerals

Numerals with an optional sign: which integer a text denotes, and the longest numeral at
the start of a text. -/

namespace Decimals

/-- The number that a text of digits denotes. -/
def natural? (text : List Char) : Option ℕ :=
  if !text.isEmpty && text.all Char.isDigit then some (Nat.ofDigitChars 10 text 0) else none

/-- The integer that a text denotes. -/
def integer? : List Char → Option ℤ
  | '-' :: digits => (natural? digits).map fun n : ℕ => -(n : ℤ)
  | '+' :: digits => (natural? digits).map fun n : ℕ => (n : ℤ)
  | digits => (natural? digits).map fun n : ℕ => (n : ℤ)

/-- The longest run of digits at the start, and the text after it. -/
def scanNatural? (text : List Char) : Option (ℕ × List Char) :=
  if (text.takeWhile Char.isDigit).isEmpty then none
  else some (Nat.ofDigitChars 10 (text.takeWhile Char.isDigit) 0, text.dropWhile Char.isDigit)

/-- The longest numeral at the start, and the text after it. -/
def scanInteger? : List Char → Option (ℤ × List Char)
  | '-' :: text => (scanNatural? text).map fun r => (-(r.1 : ℤ), r.2)
  | '+' :: text => (scanNatural? text).map fun r => ((r.1 : ℤ), r.2)
  | text => (scanNatural? text).map fun r => ((r.1 : ℤ), r.2)

/-! ## A text that is one numeral -/

theorem scanNatural?_eq_some_nil {text : List Char} {n : ℕ} :
    scanNatural? text = some (n, []) ↔ natural? text = some n := by
  unfold scanNatural? natural?
  by_cases hall : text.dropWhile Char.isDigit = []
  · have hdigits : ∀ c ∈ text, c.isDigit = true := List.dropWhile_eq_nil_iff.mp hall
    rw [List.takeWhile_eq_self_iff.mpr hdigits, hall, List.all_eq_true.mpr hdigits]
    cases text with
    | nil => simp
    | cons c text => simp
  · have hdigits : text.all Char.isDigit = false := by
      rw [Bool.eq_false_iff]
      intro h
      exact hall (List.dropWhile_eq_nil_iff.mpr (List.all_eq_true.mp h))
    simp [hall, hdigits]

theorem scanInteger?_eq_some_nil {text : List Char} {n : ℤ} :
    scanInteger? text = some (n, []) ↔ integer? text = some n := by
  have hscan (f : ℕ → ℤ) (digits : List Char) :
      (scanNatural? digits).map (fun r => (f r.1, r.2)) = some (n, []) ↔
        (natural? digits).map f = some n := by
    simp only [Option.map_eq_some_iff, Prod.mk.injEq, Prod.exists, ← scanNatural?_eq_some_nil]
    grind
  unfold scanInteger? integer?
  split
  · exact hscan (fun m => -(m : ℤ)) _
  · exact hscan (fun m => (m : ℤ)) _
  · exact hscan (fun m => (m : ℤ)) _

theorem length_of_scanNatural? {text rest : List Char} {n : ℕ}
    (h : scanNatural? text = some (n, rest)) : rest.length < text.length := by
  unfold scanNatural? at h
  split at h
  · simp at h
  · next hne =>
      have hsplit : text.takeWhile Char.isDigit ++ text.dropWhile Char.isDigit = text :=
        List.takeWhile_append_dropWhile
      have hlength := congrArg List.length hsplit
      have hpos := List.length_pos_iff.mpr (List.isEmpty_iff.not.mp hne)
      cases h
      rw [List.length_append] at hlength
      omega

theorem length_of_scanInteger? {text rest : List Char} {n : ℤ}
    (h : scanInteger? text = some (n, rest)) : rest.length < text.length := by
  have hscan (f : ℕ → ℤ) {digits : List Char}
      (h : (scanNatural? digits).map (fun r => (f r.1, r.2)) = some (n, rest)) :
      rest.length < digits.length := by
    obtain ⟨r, hr, hfr⟩ := Option.map_eq_some_iff.mp h
    cases hfr
    exact length_of_scanNatural? hr
  unfold scanInteger? at h
  split at h
  · exact Nat.lt_succ_of_lt (hscan (fun m => -(m : ℤ)) h)
  · exact Nat.lt_succ_of_lt (hscan (fun m => (m : ℤ)) h)
  · exact hscan (fun m => (m : ℤ)) h

/-! ## The text of an integer -/

theorem natural?_toDigits (n : ℕ) : natural? (Nat.toDigits 10 n) = some n := by
  have hdigits : ∀ c ∈ Nat.toDigits 10 n, c.isDigit = true :=
    fun c hc => Nat.isDigit_of_mem_toDigits (by decide) (by decide) hc
  have hne : (Nat.toDigits 10 n).isEmpty = false :=
    List.isEmpty_eq_false_iff.mpr Nat.toDigits_ne_nil
  rw [natural?, hne, List.all_eq_true.mpr hdigits, Nat.ofDigitChars_ten_toDigits]
  rfl

theorem integer?_of_digits {text : List Char} (h : ∀ c ∈ text, c.isDigit = true) :
    integer? text = (natural? text).map fun n : ℕ => (n : ℤ) := by
  unfold integer?
  split
  · exact absurd (h '-' List.mem_cons_self) (by decide)
  · exact absurd (h '+' List.mem_cons_self) (by decide)
  · rfl

theorem integer?_toString (n : ℤ) : integer? (toString n).toList = some n := by
  have hdigits (m : ℕ) : ∀ c ∈ Nat.toDigits 10 m, c.isDigit = true :=
    fun c hc => Nat.isDigit_of_mem_toDigits (by decide) (by decide) hc
  rw [Int.toString_eq_repr, Int.repr_eq_if]
  split
  · next hpos =>
      rw [Nat.toList_repr, integer?_of_digits (hdigits _), natural?_toDigits, Option.map_some,
        Int.toNat_of_nonneg hpos]
  · next hneg =>
      have hsign : ("-" ++ (-n).toNat.repr).toList = '-' :: Nat.toDigits 10 (-n).toNat := by
        rw [String.toList_append, Nat.toList_repr]
        rfl
      rw [hsign]
      simp only [integer?, natural?_toDigits, Option.map_some, Option.some.injEq]
      omega

end Decimals
