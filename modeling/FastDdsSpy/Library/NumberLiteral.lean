import FastDdsSpy.Library.Decimals
import Mathlib.Algebra.Field.Rat
import Mathlib.Tactic.Ring
import Mathlib.Tactic.FieldSimp
import Mathlib.Tactic.Positivity

/-! # Number literals

Decimal numbers with a sign, a fraction and an exponent: their grammar, the number that a
literal denotes, and the characters that would make it longer. -/

/-- A run of digits that is not empty. -/
structure Digits where
  text : List Char
  ne_nil : text ≠ []
  all_digits : ∀ c ∈ text, c.isDigit = true

namespace Digits

def value (d : Digits) : ℕ := Nat.ofDigitChars 10 d.text 0

def zero : Digits where
  text := ['0']
  ne_nil := List.cons_ne_nil _ _
  all_digits c hc := by
    rw [List.mem_singleton.mp hc]
    rfl

@[simp] theorem zero_text : zero.text = ['0'] := rfl

@[simp] theorem zero_value : zero.value = 0 := rfl

/-- The digits of a number. -/
def ofNat (n : ℕ) : Digits where
  text := Nat.toDigits 10 n
  ne_nil := Nat.toDigits_ne_nil
  all_digits _ hc := Nat.isDigit_of_mem_toDigits (by decide) (by decide) hc

@[simp] theorem value_ofNat (n : ℕ) : (ofNat n).value = n := Nat.ofDigitChars_ten_toDigits

theorem eq_zero_of_head?_toDigits {n : ℕ} (h : (Nat.toDigits 10 n).head? = some '0') : n = 0 := by
  induction n using Nat.strongRecOn with
  | ind n ih =>
      by_cases hn : n < 10
      · rw [Nat.toDigits_of_lt_base hn] at h
        simpa using h
      · rw [Nat.toDigits_of_base_le (by decide) (Nat.le_of_not_lt hn),
          List.head?_append_of_ne_nil _ Nat.toDigits_ne_nil] at h
        have hdiv : n / 10 = 0 := ih (n / 10) (by omega) h
        omega

/-- The digits of a number have no zero in front. -/
theorem ofNat_no_leading_zero (n : ℕ) (h : (ofNat n).text.head? = some '0') :
    (ofNat n).text = ['0'] := by
  rw [eq_zero_of_head?_toDigits h]
  rfl

theorem natural?_text (d : Digits) : Decimals.natural? d.text = some d.value := by
  have hne : d.text.isEmpty = false := List.isEmpty_eq_false_iff.mpr d.ne_nil
  rw [Decimals.natural?, hne, List.all_eq_true.mpr d.all_digits]
  rfl

end Digits

/-- An exponent; the sign may be missing. -/
structure Exponent where
  mark : Char
  sign : Option Char
  digits : Digits
  mark_mem : mark = 'e' ∨ mark = 'E'
  sign_mem : ∀ c ∈ sign, c = '+' ∨ c = '-'

namespace Exponent

def text (x : Exponent) : List Char := x.mark :: (x.sign.toList ++ x.digits.text)

def value (x : Exponent) : ℤ := if x.sign = some '-' then -x.digits.value else x.digits.value

end Exponent

/-- A number literal; its integer part has no superfluous zeros in front. -/
structure NumberLiteral where
  negative : Bool
  integer : Digits
  fraction : Option Digits
  exponent : Option Exponent
  no_leading_zero : integer.text.head? = some '0' → integer.text = ['0']

namespace NumberLiteral

def signText (negative : Bool) : List Char := if negative then ['-'] else []

def fractionText : Option Digits → List Char
  | some d => '.' :: d.text
  | none => []

def exponentText : Option Exponent → List Char
  | some x => x.text
  | none => []

def text (l : NumberLiteral) : List Char :=
  signText l.negative ++ (l.integer.text ++ (fractionText l.fraction ++ exponentText l.exponent))

/-- A literal without a fraction and an exponent. -/
def isInteger (l : NumberLiteral) : Bool := l.fraction.isNone && l.exponent.isNone

/-- The literal of an integer. -/
def ofNat (negative : Bool) (n : ℕ) : NumberLiteral where
  negative := negative
  integer := .ofNat n
  fraction := none
  exponent := none
  no_leading_zero := Digits.ofNat_no_leading_zero n

theorem ofNat_text (negative : Bool) (n : ℕ) :
    (ofNat negative n).text = signText negative ++ Nat.toDigits 10 n := by
  simp [text, ofNat, Digits.ofNat, fractionText, exponentText]

theorem toList_toString (n : ℤ) :
    (toString n).toList = signText (n < 0) ++ Nat.toDigits 10 n.natAbs := by
  rw [Int.toString_eq_repr, Int.repr_eq_if]
  split
  · next hpos =>
      have habs : n.toNat = n.natAbs := by omega
      rw [Nat.toList_repr, habs, decide_eq_false (not_lt.mpr hpos)]
      rfl
  · next hneg =>
      have habs : (-n).toNat = n.natAbs := by omega
      rw [String.toList_append, Nat.toList_repr, habs, decide_eq_true (not_le.mp hneg)]
      rfl

/-- A literal starts with its sign or a digit. -/
theorem text_eq_cons (l : NumberLiteral) :
    ∃ c rest, l.text = c :: rest ∧ (c = '-' ∨ c.isDigit = true) := by
  cases hsign : l.negative with
  | true => exact ⟨'-', _, by rw [text, hsign]; rfl, .inl rfl⟩
  | false =>
      obtain ⟨c, digits, htext⟩ := List.exists_cons_of_ne_nil l.integer.ne_nil
      have hdigit := l.integer.all_digits c (htext ▸ List.mem_cons_self)
      exact ⟨c, _, by rw [text, hsign, htext]; rfl, .inr hdigit⟩

/-! ## The number that a literal denotes -/

def fractionValue : Option Digits → ℚ
  | some d => d.value / 10 ^ d.text.length
  | none => 0

def exponentValue : Option Exponent → ℤ
  | some x => x.value
  | none => 0

/-- The absolute value. -/
def magnitude (l : NumberLiteral) : ℚ :=
  (l.integer.value + fractionValue l.fraction) * 10 ^ exponentValue l.exponent

theorem ofDigitChars_append (a b : List Char) :
    Nat.ofDigitChars 10 (a ++ b) 0 =
      Nat.ofDigitChars 10 a 0 * 10 ^ b.length + Nat.ofDigitChars 10 b 0 := by
  rw [Nat.ofDigitChars_append, Nat.ofDigitChars_eq_ofDigitChars_zero, Nat.mul_comm]

/-- The digits on both sides of the point are those of an integer. -/
theorem integer_add_fraction (a b : Digits) :
    (a.value : ℚ) + fractionValue (some b) =
      (Nat.ofDigitChars 10 (a.text ++ b.text) 0 : ℕ) * 10 ^ (-(b.text.length : ℤ)) := by
  have hpos : (10 : ℚ) ^ b.text.length ≠ 0 := by positivity
  rw [ofDigitChars_append, fractionValue, zpow_neg, zpow_natCast, Digits.value, Digits.value]
  push_cast
  field_simp

/-- The integer of a literal that has no fraction and no exponent. -/
def integerValue (l : NumberLiteral) : ℤ :=
  if l.negative then -l.integer.value else l.integer.value

/-- The integer that is read from the text of such a literal. -/
theorem integer?_text {l : NumberLiteral} (h : l.isInteger = true) :
    Decimals.integer? l.text = some l.integerValue := by
  obtain ⟨hfraction, hexponent⟩ := Bool.and_eq_true_iff.mp h
  rw [text, Option.isNone_iff_eq_none.mp hfraction, Option.isNone_iff_eq_none.mp hexponent]
  simp only [fractionText, exponentText, List.append_nil]
  cases hsign : l.negative with
  | false =>
      simp only [signText, integerValue, hsign, Bool.false_eq_true, if_false, List.nil_append]
      rw [Decimals.integer?_of_digits l.integer.all_digits, l.integer.natural?_text]
      rfl
  | true =>
      simp [signText, integerValue, hsign, Decimals.integer?, l.integer.natural?_text]

/-! ### The number of a text -/

def digitsValue (text : List Char) : ℕ := Nat.ofDigitChars 10 text 0

/-- The fraction and the text after it. -/
def readFraction : List Char → ℚ × List Char
  | '.' :: text => (digitsValue (text.takeWhile Char.isDigit) /
      10 ^ (text.takeWhile Char.isDigit).length, text.dropWhile Char.isDigit)
  | text => (0, text)

/-- The exponent that a text after the fraction is. -/
def readExponent : List Char → ℤ
  | _ :: '-' :: text => -digitsValue text
  | _ :: '+' :: text => digitsValue text
  | _ :: text => digitsValue text
  | [] => 0

/-- The magnitude of a literal without its sign. -/
def readMagnitude (text : List Char) : ℚ :=
  let fraction := readFraction (text.dropWhile Char.isDigit)
  (digitsValue (text.takeWhile Char.isDigit) + fraction.1) * 10 ^ readExponent fraction.2

/-- The sign and the magnitude of the literal that a text is. -/
def read : List Char → Bool × ℚ
  | '-' :: text => (true, readMagnitude text)
  | text => (false, readMagnitude text)

theorem takeWhile_digits (d : Digits) {text : List Char}
    (h : ∀ c ∈ text.head?, c.isDigit = false) :
    (d.text ++ text).takeWhile Char.isDigit = d.text ∧
      (d.text ++ text).dropWhile Char.isDigit = text := by
  rw [List.takeWhile_append_of_pos d.all_digits, List.dropWhile_append_of_pos d.all_digits]
  cases text with
  | nil => simp
  | cons c text => simp [h c rfl]

theorem exponentText_head (x : Option Exponent) :
    ∀ c ∈ (exponentText x).head?, c.isDigit = false := by
  cases x with
  | none => simp [exponentText]
  | some x =>
      intro c hc
      obtain rfl : x.mark = c := by simpa [exponentText, Exponent.text] using hc
      rcases x.mark_mem with h | h <;> rw [h] <;> rfl

theorem readExponent_text (x : Option Exponent) :
    readExponent (exponentText x) = exponentValue x := by
  cases x with
  | none => rfl
  | some x =>
      obtain ⟨mark, sign, digits, hmark, hsign⟩ := x
      cases sign with
      | some c =>
          rcases hsign c rfl with rfl | rfl
          all_goals simp [exponentText, Exponent.text, readExponent, exponentValue, Exponent.value,
            Digits.value, digitsValue]
      | none =>
          obtain ⟨c, rest, htext⟩ := List.exists_cons_of_ne_nil digits.ne_nil
          have hdigit := digits.all_digits c (htext ▸ List.mem_cons_self)
          have hminus : c ≠ '-' := by
            rintro rfl
            simp at hdigit
          have hplus : c ≠ '+' := by
            rintro rfl
            simp at hdigit
          simp [exponentText, Exponent.text, readExponent, exponentValue, Exponent.value,
            Digits.value, digitsValue, htext, hminus, hplus]

theorem readFraction_text (fraction : Option Digits) (x : Option Exponent) :
    readFraction (fractionText fraction ++ exponentText x) =
      (fractionValue fraction, exponentText x) := by
  cases fraction with
  | none =>
      cases x with
      | none => rfl
      | some x =>
          have hmark : x.mark ≠ '.' := by rcases x.mark_mem with h | h <;> rw [h] <;> decide
          simp [readFraction, fractionText, exponentText, Exponent.text, hmark, fractionValue]
  | some d =>
      obtain ⟨htake, hdrop⟩ := takeWhile_digits d (exponentText_head x)
      simp only [fractionText, List.cons_append, readFraction, htake, hdrop]
      rfl

theorem read_text (l : NumberLiteral) : read l.text = (l.negative, l.magnitude) := by
  have hread : readMagnitude (l.integer.text ++
      (fractionText l.fraction ++ exponentText l.exponent)) = l.magnitude := by
    have hhead : ∀ c ∈ (fractionText l.fraction ++ exponentText l.exponent).head?,
        c.isDigit = false := by
      cases l.fraction with
      | none => exact exponentText_head l.exponent
      | some d => simp [fractionText]
    obtain ⟨htake, hdrop⟩ := takeWhile_digits l.integer hhead
    simp only [readMagnitude, htake, hdrop, readFraction_text, readExponent_text]
    rfl
  cases hsign : l.negative with
  | true =>
      rw [text, hsign]
      exact congrArg (true, ·) hread
  | false =>
      obtain ⟨c, digits, htext⟩ := List.exists_cons_of_ne_nil l.integer.ne_nil
      have hdigit := l.integer.all_digits c (htext ▸ List.mem_cons_self)
      have hc : c ≠ '-' := by
        rintro rfl
        simp at hdigit
      rw [← hread, text, hsign, htext]
      simp [signText, read, hc]

/-! ## Where a literal ends -/

/-- The characters that can follow an integer part with a fraction and an exponent; `digit`
tells whether the integer part alone can be followed by a digit. -/
def tailContinues (digit : Bool) : Option Digits → Option Exponent → Char → Bool
  | _, some _, c => c.isDigit
  | some _, none, c => c.isDigit || c == 'e' || c == 'E'
  | none, none, c => (digit && c.isDigit) || c == '.' || c == 'e' || c == 'E'

/-- The characters that make a literal longer, or begin to. -/
def continues (l : NumberLiteral) : Char → Bool :=
  tailContinues (l.integer.text != ['0']) l.fraction l.exponent

/-- The literal is all of the number at the start of a text that goes on with `rest`. -/
def EndsBefore (l : NumberLiteral) (rest : List Char) : Prop :=
  ∀ c ∈ rest.head?, l.continues c = false

end NumberLiteral
