import Mathlib.Data.String.Basic

/-! # JSON strings

`dump_escaped` of `nlohmann::json` and `scan_string` of its lexer. Texts are lists of code
points, so what these functions do with ill-formed UTF-8 does not occur. -/

namespace FastDdsSpy

abbrev Text := List Char

/-- What a string of the source is made of: its bytes, or code points where it is a text. -/
class TextUnit (χ : Type) where
  /-- The character constant that a unit is compared with. -/
  charOf : χ → Char
  /-- The unit of an ASCII character. -/
  ofChar : Char → χ

instance textUnitChar : TextUnit Char where
  charOf c := c
  ofChar c := c

instance textUnitByte : TextUnit UInt8 where
  charOf byte := Char.ofNat byte.toNat
  ofChar c := UInt8.ofNat c.toNat

/-- A string literal. -/
def ascii {χ : Type} [TextUnit χ] (text : Text) : List χ := text.map TextUnit.ofChar

@[simp] theorem charOf_char (c : Char) : TextUnit.charOf c = c := rfl

@[simp] theorem map_charOf_char (text : Text) : text.map TextUnit.charOf = text := List.map_id text

@[simp] theorem ascii_char (text : Text) : (ascii text : Text) = text := List.map_id text

namespace Json

/-! ## `dump_escaped` -/

/-- `%04x`. -/
def hex4 (n : ℕ) : Text :=
  [(n / 0x1000 % 16).digitChar, (n / 0x100 % 16).digitChar, (n / 0x10 % 16).digitChar,
    (n % 16).digitChar]

/-- What is written for a code point, without `ensure_ascii`. -/
def escape : Char → Text
  | '\x08' => ['\\', 'b']
  | '\t' => ['\\', 't']
  | '\n' => ['\\', 'n']
  | '\x0C' => ['\\', 'f']
  | '\r' => ['\\', 'r']
  | '"' => ['\\', '"']
  | '\\' => ['\\', '\\']
  | c => if c.toNat ≤ 0x1F then ['\\', 'u'] ++ hex4 c.toNat else [c]

/-- `dump` of a string. -/
def dumpString (s : String) : Text := ['"'] ++ s.toList.flatMap escape ++ ['"']

/-! ## `scan_string` -/

def hexValue (c : Char) : Option ℕ :=
  if '0' ≤ c ∧ c ≤ '9' then some (c.toNat - 0x30)
  else if 'A' ≤ c ∧ c ≤ 'F' then some (c.toNat - 0x37)
  else if 'a' ≤ c ∧ c ≤ 'f' then some (c.toNat - 0x57)
  else none

/-- `get_codepoint`, after `\u`. -/
def getCodepoint : Text → Option (ℕ × Text)
  | c1 :: c2 :: c3 :: c4 :: rest =>
    match hexValue c1, hexValue c2, hexValue c3, hexValue c4 with
    | some d1, some d2, some d3, some d4 =>
      some (d1 * 0x1000 + d2 * 0x100 + d3 * 0x10 + d4, rest)
    | _, _, _, _ => none
  | _ => none

/-- The code point of a unicode escape, after its first `\u`. -/
def scanUnicode (text : Text) : Option (Char × Text) :=
  match getCodepoint text with
  | none => none
  | some (codepoint1, rest) =>
    if 0xD800 ≤ codepoint1 ∧ codepoint1 ≤ 0xDBFF then
      match rest with
      | '\\' :: 'u' :: rest =>
        match getCodepoint rest with
        | none => none
        | some (codepoint2, rest) =>
          if 0xDC00 ≤ codepoint2 ∧ codepoint2 ≤ 0xDFFF then
            some (Char.ofNat (codepoint1 * 0x400 + codepoint2 - 0x35FDC00), rest)
          else none
      | _ => none
    else if 0xDC00 ≤ codepoint1 ∧ codepoint1 ≤ 0xDFFF then none
    else some (Char.ofNat codepoint1, rest)

/-- The character of an escape sequence, after the backslash. -/
def scanEscape : Text → Option (Char × Text)
  | '"' :: rest => some ('"', rest)
  | '\\' :: rest => some ('\\', rest)
  | '/' :: rest => some ('/', rest)
  | 'b' :: rest => some ('\x08', rest)
  | 'f' :: rest => some ('\x0C', rest)
  | 'n' :: rest => some ('\n', rest)
  | 'r' :: rest => some ('\r', rest)
  | 't' :: rest => some ('\t', rest)
  | 'u' :: rest => scanUnicode rest
  | _ => none

theorem getCodepoint_shorter {text rest : Text} {n : ℕ} (h : getCodepoint text = some (n, rest)) :
    rest.length < text.length := by
  unfold getCodepoint at h
  split at h
  · split at h
    · cases h
      simp only [List.length_cons]
      omega
    · simp at h
  · simp at h

theorem scanUnicode_shorter {text rest : Text} {c : Char} (h : scanUnicode text = some (c, rest)) :
    rest.length < text.length := by
  unfold scanUnicode at h
  split at h
  · simp at h
  · next hfirst =>
      have hfirst := getCodepoint_shorter hfirst
      split at h
      · split at h
        · split at h
          · simp at h
          · next hsecond =>
              have hsecond := getCodepoint_shorter hsecond
              split at h
              · simp only [Option.some.injEq, Prod.mk.injEq] at h
                simp only [h.2, List.length_cons] at hfirst hsecond
                omega
              · simp at h
        · simp at h
      · split at h
        · simp at h
        · simp only [Option.some.injEq, Prod.mk.injEq] at h
          rwa [h.2] at hfirst

theorem scanEscape_shorter {text rest : Text} {c : Char} (h : scanEscape text = some (c, rest)) :
    rest.length < text.length := by
  unfold scanEscape at h
  split at h
  case h_9 => exact (scanUnicode_shorter h).trans (Nat.lt_succ_self _)
  case h_10 => simp at h
  all_goals
    cases h
    exact Nat.lt_succ_self _

/-- The loop of `scan_string`, after the opening quote. -/
def scanCharacters (text : Text) : Option (Text × Text) :=
  match text with
  | [] => none
  | '"' :: rest => some ([], rest)
  | '\\' :: rest =>
    match _h : scanEscape rest with
    | none => none
    | some (c, rest) => (scanCharacters rest).map (Prod.map (c :: ·) id)
  | c :: rest =>
    if c.toNat ≤ 0x1F then none else (scanCharacters rest).map (Prod.map (c :: ·) id)
termination_by text.length
decreasing_by
  · exact (scanEscape_shorter _h).trans (Nat.lt_succ_self _)
  · exact Nat.lt_succ_self _

def scanString : Text → Option (String × Text)
  | '"' :: rest => (scanCharacters rest).map (Prod.map String.ofList id)
  | _ => none

theorem scanCharacters_shorter {text rest value : Text}
    (h : scanCharacters text = some (value, rest)) : rest.length < text.length := by
  fun_induction scanCharacters text generalizing value with
  | case1 => simp at h
  | case2 => 
      cases h
      exact Nat.lt_succ_self _
  | case3 => simp at h
  | case4 text c tail hescape ih =>
      obtain ⟨⟨v, r⟩, htail, hr⟩ := Option.map_eq_some_iff.mp h
      cases hr
      have hlt := (ih htail).trans (scanEscape_shorter hescape)
      simp only [List.length_cons]
      omega
  | case5 => simp at h
  | case6 c tail _ _ _ ih =>
      obtain ⟨⟨v, r⟩, htail, hr⟩ := Option.map_eq_some_iff.mp h
      cases hr
      exact (ih htail).trans (Nat.lt_succ_self _)

theorem scanString_shorter {text rest : Text} {value : String}
    (h : scanString text = some (value, rest)) : rest.length < text.length := by
  unfold scanString at h
  split at h
  · obtain ⟨⟨v, r⟩, htail, hr⟩ := Option.map_eq_some_iff.mp h
    cases hr
    exact (scanCharacters_shorter htail).trans (Nat.lt_succ_self _)
  · simp at h

end Json

end FastDdsSpy
