import FastDdsSpy.Verification.Json.NumberGrammar
import Mathlib.Data.Nat.Digits.Defs

/-! # Integers are written and read back

`dump_integer` fills its buffer from the end, two digits at a time, so the number of digits
has to be right before the first one is written. -/

namespace FastDdsSpy

open NumberLiteral

variable {φ : Type*} (ft : FloatText φ) {text rest : Text}

/-! ## Reading -/

/-- The value of a literal: an integer if it is one and fits its type, else a float. -/
def literalNumber (l : NumberLiteral) : Option (JsonNumber φ) :=
  if l.isInteger ∧ l.negative = false ∧ l.integerValue < 2 ^ 64 then
    some (.unsigned (.ofNat l.integer.value))
  else if l.isInteger ∧ l.negative = true ∧ -2 ^ 63 ≤ l.integerValue then
    some (.integer (.ofInt l.integerValue))
  else (ft.strtod l.text).map .float

theorem convertNumber_literal (l : NumberLiteral) :
    convertNumber ft (literalType l) l.text = literalNumber ft l := by
  by_cases hinteger : l.isInteger = true
  · have hread := integer?_text hinteger
    have htail : (l.fraction.isNone && l.exponent.isNone) = true := hinteger
    cases hsign : l.negative with
    | false =>
        have htext : l.text = l.integer.text := by
          obtain ⟨hfraction, hexponent⟩ := Bool.and_eq_true_iff.mp hinteger
          simp [NumberLiteral.text, hsign, signText, Option.isNone_iff_eq_none.mp hfraction,
            Option.isNone_iff_eq_none.mp hexponent, fractionText, exponentText]
        have hfits : l.integerValue < 2 ^ 64 ↔ l.integer.value < 2 ^ 64 := by
          rw [integerValue, hsign, if_neg Bool.false_ne_true]
          exact_mod_cast Iff.rfl
        simp only [convertNumber, literalType, tailType, htail, hsign, if_true, strtoull, htext,
          l.integer.natural?_text, Option.bind_some, literalNumber, hinteger, hfits, true_and,
          Bool.false_eq_true, false_and, and_false, if_false]
        by_cases h : l.integer.value < 2 ^ 64
        · simp only [if_pos h]
        · simp only [if_neg h]
    | true =>
        have hlt : l.integerValue < 2 ^ 63 := by
          have hvalue : l.integerValue = -l.integer.value := by simp [integerValue, hsign]
          omega
        simp only [convertNumber, literalType, tailType, htail, hsign, if_true, strtoll, hread,
          Option.bind_some, literalNumber, hinteger, hlt, and_true, true_and, Bool.true_eq_false,
          false_and, and_false, if_false]
        by_cases h : -2 ^ 63 ≤ l.integerValue
        · simp only [if_pos h]
        · simp only [if_neg h]
  · have htail : (l.fraction.isNone && l.exponent.isNone) = false :=
      Bool.eq_false_iff.mpr hinteger
    simp [convertNumber, literalType, tailType, htail, literalNumber, hinteger]

theorem scanNumber_literal (l : NumberLiteral) (hends : l.EndsBefore rest) :
    scanNumber ft (l.text ++ rest) =
      (literalNumber ft l).map fun value => (value, rest) := by
  rw [scanNumber, scanLabel_literal l hends]
  simp only [map_charOf_char, convertNumber_literal]

/-- The lexer reads as a number the longest literal at the start of the text, when no longer
literal begins there, and gives it its value. -/
theorem scanNumber_iff {value : JsonNumber φ} :
    scanNumber ft text = some (value, rest) ↔
      ∃ l : NumberLiteral, text = l.text ++ rest ∧ l.EndsBefore rest ∧
        literalNumber ft l = some value := by
  constructor
  · intro h
    unfold scanNumber at h
    split at h
    · next numberType token _ hscan =>
        obtain ⟨l, rfl, rfl, htext, hends⟩ := scanLabel_iff.mp hscan
        obtain ⟨value, hvalue, heq⟩ := Option.map_eq_some_iff.mp h
        cases heq
        rw [map_charOf_char, convertNumber_literal] at hvalue
        exact ⟨l, htext, hends, hvalue⟩
    · simp at h
  · intro h
    obtain ⟨l, rfl, hends, hvalue⟩ := h
    rw [scanNumber_literal ft l hends, hvalue]
    rfl

/-! ## Digits -/

theorem asciiDigit_eq : ∀ {k : ℕ}, k < 10 → asciiDigit k = Nat.digitChar k := by decide

theorem toDigits_pair {x : ℕ} (h : 10 ≤ x) (hx : x < 100) :
    Nat.toDigits 10 x = [Nat.digitChar (x / 10), Nat.digitChar (x % 10)] := by
  rw [Nat.toDigits_of_base_le (by decide) h, Nat.toDigits_of_lt_base (by omega)]
  rfl

theorem toDigits_hundred {x : ℕ} (h : 100 ≤ x) :
    Nat.toDigits 10 x = Nat.toDigits 10 (x / 100) ++
      [Nat.digitChar (x % 100 / 10), Nat.digitChar (x % 100 % 10)] := by
  have hdiv : x / 10 / 10 = x / 100 := by omega
  have htens : x / 10 % 10 = x % 100 / 10 := by omega
  have hunits : x % 10 = x % 100 % 10 := by omega
  rw [Nat.toDigits_of_base_le (by decide) (by omega : 10 ≤ x),
    Nat.toDigits_of_base_le (by decide) (by omega : 10 ≤ x / 10), hdiv, htens, hunits]
  simp

theorem length_toDigits_div {x : ℕ} (h : 10 ≤ x) :
    (Nat.toDigits 10 x).length = (Nat.toDigits 10 (x / 10)).length + 1 := by
  rw [Nat.toDigits_of_base_le (by decide) h, List.length_append]
  rfl

theorem countDigits_eq (x nDigits : ℕ) :
    countDigits x nDigits + 1 = nDigits + (Nat.toDigits 10 x).length := by
  have hone {x : ℕ} (h : x < 10) : (Nat.toDigits 10 x).length = 1 := by
    rw [Nat.toDigits_of_lt_base h]
    rfl
  fun_induction countDigits x nDigits with
  | case1 x nDigits h => rw [hone h]
  | case2 x nDigits h₁ h => rw [length_toDigits_div (by omega), hone (by omega)]
  | case3 x nDigits h₁ h₂ h =>
      rw [length_toDigits_div (by omega), length_toDigits_div (by omega), hone (by omega)]
  | case4 x nDigits h₁ h₂ h₃ h =>
      rw [length_toDigits_div (by omega), length_toDigits_div (by omega),
        length_toDigits_div (by omega), hone (by omega)]
  | case5 x nDigits h₁ h₂ h₃ h₄ ih =>
      have hdiv : x / 10 / 10 / 10 / 10 = x / 10000 := by omega
      rw [length_toDigits_div (by omega), length_toDigits_div (by omega),
        length_toDigits_div (by omega), length_toDigits_div (by omega), hdiv]
      omega

/-! ## The buffer -/

theorem writePair_eq (front rest : Text) (a b : Char) {i : ℕ} (h : i < 100) :
    writePair (front ++ a :: b :: rest) (front.length + 2) i =
      front ++ Nat.digitChar (i / 10) :: Nat.digitChar (i % 10) :: rest := by
  rw [writePair, asciiDigit_eq (by omega), asciiDigit_eq (by omega),
    List.set_append_right _ _ (by omega), List.set_append_right _ _ (by omega)]
  have hlast : front.length + 2 - 1 - front.length = 1 := by omega
  have hfirst : front.length + 2 - 2 - front.length = 0 := by omega
  rw [hlast, hfirst]
  rfl

theorem eq_append_pair {place : Text} {n : ℕ} (h : place.length = n + 2) :
    ∃ front a b, place = front ++ [a, b] ∧ front.length = n := by
  obtain ⟨a, b, hpair⟩ : ∃ a b, place.drop n = [a, b] :=
    List.length_eq_two.mp (by rw [List.length_drop]; omega)
  refine ⟨place.take n, a, b, ?_, ?_⟩
  · rw [← hpair, List.take_append_drop]
  · rw [List.length_take]
    omega

/-- A place for the digits of the number is filled, and nothing else is written. -/
theorem writeDigits_eq (front place rest : Text) (x : ℕ)
    (h : place.length = (Nat.toDigits 10 x).length) :
    writeDigits x (front ++ (place ++ rest)) (front.length + place.length) =
      front ++ (Nat.toDigits 10 x ++ rest) := by
  induction x using Nat.strongRecOn generalizing place rest with
  | ind x ih =>
      rw [writeDigits]
      split
      · next hx =>
          -- the last two places are those of the pair, the others are left for the next iteration
          rw [toDigits_hundred hx, List.length_append] at h
          obtain ⟨place, a, b, rfl, hplace⟩ := eq_append_pair h
          have hlength : front.length + (place ++ [a, b]).length = (front ++ place).length + 2 := by
            simp [Nat.add_assoc]
          have hbuffer : front ++ (place ++ [a, b] ++ rest) = front ++ place ++ a :: b :: rest := by
            simp
          rw [hlength, hbuffer, writePair_eq _ _ _ _ (by omega), Nat.add_sub_cancel,
            List.length_append, List.append_assoc, ih (x / 100) (by omega) place _ hplace,
            toDigits_hundred hx]
          simp
      · next hx =>
          split
          · next hten =>
              rw [toDigits_pair hten (by omega)] at h ⊢
              obtain ⟨a, b, rfl⟩ := List.length_eq_two.mp h
              exact writePair_eq front rest a b (by omega)
          · next hten =>
              rw [Nat.toDigits_of_lt_base (by omega)] at h ⊢
              obtain ⟨a, rfl⟩ := List.length_eq_one_iff.mp h
              rw [asciiDigit_eq (by omega)]
              simp

/-- The number of digits of a 64-bit integer. -/
theorem length_toDigits_le (x : UInt64) : (Nat.toDigits 10 x.toNat).length ≤ 20 :=
  Nat.toDigits_length 10 x.toNat 20 (by decide) (x.toNat_lt.trans (by decide))

/-- What is in the buffer before has no effect. -/
theorem dumpInteger_eq {numberBuffer : Text} (hsize : numberBuffer.length = 64)
    (isNegativeNumber : Bool) {absValue : UInt64}
    (hsign : isNegativeNumber = true → absValue ≠ 0) :
    dumpInteger numberBuffer isNegativeNumber absValue =
      signText isNegativeNumber ++ Nat.toDigits 10 absValue.toNat := by
  have hlength := length_toDigits_le absValue
  have hcount := countDigits_eq absValue.toNat 1
  have hfill (front rest : Text) (hrest : (Nat.toDigits 10 absValue.toNat).length ≤ rest.length)
      (n : ℕ) (hn : n = front.length + (Nat.toDigits 10 absValue.toNat).length) :
      (writeDigits absValue.toNat (front ++ rest) n).take n =
        front ++ Nat.toDigits 10 absValue.toNat := by
    have hplace : (rest.take (Nat.toDigits 10 absValue.toNat).length).length =
        (Nat.toDigits 10 absValue.toNat).length := List.length_take_of_le hrest
    have hwrite := writeDigits_eq front _ (rest.drop (Nat.toDigits 10 absValue.toNat).length)
      absValue.toNat hplace
    rw [List.take_append_drop, hplace, ← hn] at hwrite
    rw [hwrite, hn, ← List.append_assoc, List.take_left' (by simp)]
  unfold dumpInteger
  split
  · next hzero =>
      have hpositive : isNegativeNumber = false :=
        Bool.eq_false_iff.mpr fun h => hsign h hzero
      rw [hpositive, hzero]
      rfl
  · cases isNegativeNumber with
    | false => exact hfill [] numberBuffer (by omega) _ (by simp only [List.length_nil]; omega)
    | true =>
        obtain ⟨c, buffer, rfl⟩ := List.exists_cons_of_length_pos (l := numberBuffer) (by omega)
        rw [List.length_cons] at hsize
        exact hfill ['-'] buffer (by omega) _ (by simp only [List.length_singleton]; omega)

theorem removeSign_toNat {x : Int64} (h : x < 0) : (removeSign x).toNat = x.toInt.natAbs := by
  have hneg : x.toInt < 0 := Int64.lt_iff_toInt_lt.mp h
  have hlow : -2 ^ 63 ≤ x.toInt := Int64.le_toInt x
  have hsucc : (x + 1).toInt = x.toInt + 1 := by
    rw [Int64.toInt_add, Int64.toInt_one]
    exact Int.bmod_eq_of_le (by omega) (by omega)
  have hminus : (-(x + 1)).toInt = -(x.toInt + 1) := by
    rw [Int64.toInt_neg, hsucc]
    exact Int.bmod_eq_of_le (by omega) (by omega)
  have hnonneg : 0 ≤ -(x + 1) := by
    rw [Int64.le_iff_toInt_le, hminus]
    exact Int.neg_nonneg.mpr (by omega)
  have hnat : (-(x + 1)).toUInt64.toNat = (-(x.toInt + 1)).toNat := by
    rw [Int64.toNat_toUInt64_of_le hnonneg, ← Int64.toNat_toInt, hminus]
  have hone : (1 : UInt64).toNat = 1 := rfl
  rw [removeSign, UInt64.toNat_add, hnat, hone]
  omega

theorem dumpUInt64_eq {numberBuffer : Text} (hsize : numberBuffer.length = 64) (x : UInt64) :
    dumpUInt64 numberBuffer x = (NumberLiteral.ofNat false x.toNat).text := by
  rw [dumpUInt64, dumpInteger_eq hsize false (by simp), ofNat_text]

theorem dumpInt64_eq {numberBuffer : Text} (hsize : numberBuffer.length = 64) (x : Int64) :
    dumpInt64 numberBuffer x = (NumberLiteral.ofNat (x < 0) x.toInt.natAbs).text := by
  have habs : (if x < 0 then removeSign x else x.toUInt64).toNat = x.toInt.natAbs := by
    split
    · next hneg => exact removeSign_toNat hneg
    · next hneg =>
        have hle : 0 ≤ x := Int64.not_lt.mp hneg
        have hnonneg : 0 ≤ x.toInt := Int64.le_iff_toInt_le.mp hle
        rw [Int64.toNat_toUInt64_of_le hle, ← Int64.toNat_toInt]
        omega
  have hsign : decide (x < 0) = true → (if x < 0 then removeSign x else x.toUInt64) ≠ 0 := by
    intro hneg hzero
    have hlt : x.toInt < 0 := Int64.lt_iff_toInt_lt.mp (of_decide_eq_true hneg)
    rw [hzero] at habs
    have hnat : (0 : UInt64).toNat = 0 := rfl
    omega
  rw [dumpInt64, dumpInteger_eq hsize _ hsign, habs, ofNat_text]

end FastDdsSpy
