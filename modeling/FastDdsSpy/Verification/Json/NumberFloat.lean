import FastDdsSpy.Verification.Json.NumberDump

/-! # Floats are written as literals of their value

`format_buffer` places the point and the exponent without changing the number that the digits
stand for, and never writes an integer. -/

namespace FastDdsSpy

open NumberLiteral

/-! ## The exponent -/

/-- The digits of `append_exponent` for an exponent `k`. -/
def exponentDigits (k : ℕ) : Text :=
  if k < 10 then ['0', asciiDigit k]
  else if k < 100 then [asciiDigit (k / 10), asciiDigit (k % 10)]
  else [asciiDigit (k / 100), asciiDigit (k % 100 / 10), asciiDigit (k % 100 % 10)]

theorem isDigit_asciiDigit {k : ℕ} (h : k < 10) : (asciiDigit k).isDigit = true := by
  rw [asciiDigit_eq h, Nat.isDigit_digitChar, decide_eq_true h]

theorem exponentDigits_isDigit {k : ℕ} (h : k < 1000) :
    ∀ c ∈ exponentDigits k, c.isDigit = true := by
  unfold exponentDigits
  split
  · next hk => simp [isDigit_asciiDigit hk]
  · split
    · simp [isDigit_asciiDigit (show k / 10 < 10 by omega),
        isDigit_asciiDigit (show k % 10 < 10 by omega)]
    · simp [isDigit_asciiDigit (show k / 100 < 10 by omega),
        isDigit_asciiDigit (show k % 100 / 10 < 10 by omega),
        isDigit_asciiDigit (show k % 10 < 10 by omega)]

theorem ofDigitChars_asciiDigit {k : ℕ} (h : k < 10) (cs : Text) (init : ℕ) :
    Nat.ofDigitChars 10 (asciiDigit k :: cs) init = Nat.ofDigitChars 10 cs (10 * init + k) := by
  rw [asciiDigit_eq h, Nat.ofDigitChars_cons_digitChar_of_lt_ten h]

theorem exponentDigits_value {k : ℕ} (h : k < 1000) :
    Nat.ofDigitChars 10 (exponentDigits k) 0 = k := by
  have hzero : '0' = asciiDigit 0 := rfl
  unfold exponentDigits
  split
  · next hk =>
      rw [hzero, ofDigitChars_asciiDigit (by omega), ofDigitChars_asciiDigit hk,
        Nat.ofDigitChars_nil]
      omega
  · split
    · rw [ofDigitChars_asciiDigit (by omega), ofDigitChars_asciiDigit (by omega),
        Nat.ofDigitChars_nil]
      omega
    · rw [ofDigitChars_asciiDigit (by omega), ofDigitChars_asciiDigit (by omega),
        ofDigitChars_asciiDigit (by omega), Nat.ofDigitChars_nil]
      omega

/-- What `append_exponent` writes, after the `e`. -/
theorem appendExponent_text {e : ℤ} (h : e.natAbs < 1000) :
    ∃ x : Exponent, 'e' :: appendExponent e = x.text ∧ x.value = e := by
  have hne : exponentDigits e.natAbs ≠ [] := by
    unfold exponentDigits
    split
    · simp
    · split <;> simp
  let digits : Digits := ⟨exponentDigits e.natAbs, hne, exponentDigits_isDigit h⟩
  have hvalue : digits.value = e.natAbs := exponentDigits_value h
  by_cases he : e < 0
  · refine ⟨⟨'e', some '-', digits, .inl rfl, by simp⟩, ?_, ?_⟩
    · simp [appendExponent, he, Exponent.text, digits, exponentDigits]
    · simp only [Exponent.value, if_true, hvalue]
      omega
  · refine ⟨⟨'e', some '+', digits, .inl rfl, by simp⟩, ?_, ?_⟩
    · simp [appendExponent, he, Exponent.text, digits, exponentDigits]
    · simp only [Exponent.value, hvalue]
      have hplus : ¬ some '+' = some '-' := by decide
      rw [if_neg hplus]
      omega

/-! ## The layouts -/

/-- The text, with its sign, is a literal that is not an integer and stands for the digits `d`
times a power of ten. -/
def Writes (negative : Bool) (d : Digits) (decimalExponent : ℤ) (text : Text) : Prop :=
  ∃ l : NumberLiteral, signText negative ++ text = l.text ∧ l.negative = negative ∧
    l.isInteger = false ∧ l.magnitude = d.value * 10 ^ decimalExponent

section Layouts

variable (negative : Bool) {d : Digits} {decimalExponent : ℤ} {text : Text}

theorem writes_fraction {a b : Digits} (hlead : a.text.head? = some '0' → a.text = ['0'])
    (x : Option Exponent) (htext : text = a.text ++ '.' :: (b.text ++ exponentText x))
    {m : ℕ} (hdigits : Nat.ofDigitChars 10 (a.text ++ b.text) 0 = d.value * 10 ^ m)
    (hexp : m + exponentValue x = decimalExponent + b.text.length) :
    Writes negative d decimalExponent text := by
  refine ⟨⟨negative, a, some b, x, hlead⟩, ?_, rfl, rfl, ?_⟩
  · simp [htext, NumberLiteral.text, fractionText]
  · have hten : (10 : ℚ) ≠ 0 := by norm_num
    rw [NumberLiteral.magnitude, integer_add_fraction, hdigits]
    push_cast
    rw [mul_assoc, mul_assoc, ← zpow_natCast, ← zpow_add₀ hten, ← zpow_add₀ hten]
    congr 2
    omega

/-- Zeros after the digits, and a fraction that is zero. -/
theorem writes_integral (hlead : d.text.head? ≠ some '0') (m : ℕ) :
    Writes negative d m (d.text ++ List.replicate m '0' ++ ['.', '0']) := by
  have hall : ∀ c ∈ d.text ++ List.replicate m '0', c.isDigit = true := by
    intro c hc
    rcases List.mem_append.mp hc with hc | hc
    · exact d.all_digits c hc
    · rw [List.eq_of_mem_replicate hc]
      rfl
  have hne : d.text ++ List.replicate m '0' ≠ [] := List.append_ne_nil_of_left_ne_nil d.ne_nil _
  refine writes_fraction negative (a := ⟨_, hne, hall⟩) (b := .zero) ?_ none
    rfl (m := m + 1) ?_ (by simp [exponentValue])
  · rw [List.head?_append_of_ne_nil _ d.ne_nil]
    exact fun h => absurd h hlead
  · simp only [ofDigitChars_append, Nat.ofDigitChars_replicate_zero, List.length_replicate]
    have hzero : Nat.ofDigitChars 10 Digits.zero.text 0 = 0 := rfl
    rw [Digits.value, pow_succ, hzero]
    simp [mul_assoc]

/-- The point between the digits. -/
theorem writes_point (hlead : d.text.head? ≠ some '0') {n : ℕ} (hpos : 0 < n)
    (hn : n < d.text.length) (x : Option Exponent) :
    Writes negative d (n - d.text.length + exponentValue x)
      (d.text.take n ++ '.' :: (d.text.drop n ++ exponentText x)) := by
  have hne : d.text.take n ≠ [] := by
    rw [← List.length_pos_iff, List.length_take]
    omega
  have hne' : d.text.drop n ≠ [] := by
    rw [← List.length_pos_iff, List.length_drop]
    omega
  refine writes_fraction negative
    (a := ⟨_, hne, fun c hc => d.all_digits c (List.mem_of_mem_take hc)⟩)
    (b := ⟨_, hne', fun c hc => d.all_digits c (List.mem_of_mem_drop hc)⟩) ?_ x rfl (m := 0) ?_ ?_
  · rw [List.head?_take, if_neg (by omega)]
    exact fun h => absurd h hlead
  · rw [List.take_append_drop, pow_zero, mul_one]
    rfl
  · simp only [List.length_drop]
    omega

/-- Zeros between the point and the digits. -/
theorem writes_small (n : ℕ) :
    Writes negative d (-n - d.text.length) ('0' :: '.' :: (List.replicate n '0' ++ d.text)) := by
  have hall : ∀ c ∈ List.replicate n '0' ++ d.text, c.isDigit = true := by
    intro c hc
    rcases List.mem_append.mp hc with hc | hc
    · rw [List.eq_of_mem_replicate hc]
      rfl
    · exact d.all_digits c hc
  have hne : List.replicate n '0' ++ d.text ≠ [] := List.append_ne_nil_of_right_ne_nil _ d.ne_nil
  refine writes_fraction negative (a := .zero) (b := ⟨_, hne, hall⟩)
    (fun _ => rfl) none (by simp [exponentText]) (m := 0) ?_ ?_
  · have hzeros : ['0'] ++ (List.replicate n '0' ++ d.text) =
        List.replicate (n + 1) '0' ++ d.text := by
      rw [List.replicate_succ]
      rfl
    simp only [Digits.zero_text, hzeros, ofDigitChars_append, Nat.ofDigitChars_replicate_zero,
      Nat.mul_zero, Nat.zero_mul, Nat.zero_add, pow_zero, mul_one]
    rfl
  · simp only [exponentValue, List.length_append, List.length_replicate]
    omega

/-- One digit and an exponent. -/
theorem writes_digit (hlead : d.text.head? ≠ some '0') (x : Exponent) :
    Writes negative d x.value (d.text ++ x.text) := by
  refine ⟨⟨negative, d, none, some x, fun h => absurd h hlead⟩, ?_, rfl, rfl, ?_⟩
  · simp [NumberLiteral.text, fractionText, exponentText]
  · simp [NumberLiteral.magnitude, fractionValue, exponentValue]

end Layouts

theorem formatBuffer_writes (negative : Bool) (d : Digits) (hlead : d.text.head? ≠ some '0')
    {decimalExponent : ℤ} (minExp maxExp : ℤ)
    (hexp : (d.text.length + decimalExponent - 1).natAbs < 1000) :
    Writes negative d decimalExponent (formatBuffer d.text decimalExponent minExp maxExp) := by
  obtain ⟨x, hxtext, hxvalue⟩ := appendExponent_text hexp
  have hpos : 0 < d.text.length := List.length_pos_iff.mpr d.ne_nil
  unfold formatBuffer
  simp only
  split
  · next h =>
      have hzeros := writes_integral negative hlead
        (d.text.length + decimalExponent - d.text.length).toNat
      have hexact : ((d.text.length + decimalExponent - d.text.length).toNat : ℤ) =
          decimalExponent := by omega
      rwa [hexact] at hzeros
  · split
    · next h =>
        have hpoint := writes_point negative hlead (n := (d.text.length + decimalExponent).toNat)
          (by omega) (by omega) none
        have hexact : ((d.text.length + decimalExponent).toNat : ℤ) - d.text.length +
            exponentValue none = decimalExponent := by
          simp only [exponentValue]
          omega
        rw [hexact] at hpoint
        simpa [exponentText] using hpoint
    · split
      · next h =>
          have hsmall := writes_small negative (d := d) (-(d.text.length + decimalExponent)).toNat
          have hexact : -((-(d.text.length + decimalExponent)).toNat : ℤ) - d.text.length =
              decimalExponent := by omega
          rwa [hexact] at hsmall
      · rw [hxtext]
        split
        · next h =>
            have hdigit := writes_digit negative hlead x
            have hexact : x.value = decimalExponent := by omega
            rwa [hexact] at hdigit
        · next h =>
            have hpoint := writes_point negative hlead (n := 1) (by omega) (by omega) (some x)
            have hexact : ((1 : ℕ) : ℤ) - d.text.length + exponentValue (some x) =
                decimalExponent := by
              simp only [exponentValue]
              omega
            rwa [hexact] at hpoint

end FastDdsSpy
