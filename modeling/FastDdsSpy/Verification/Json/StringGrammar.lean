import FastDdsSpy.Verification.Json.Strings

/-! # The strings that the lexer reads

The escapes of a JSON string as a grammar, and that `scan_string` reads exactly the strings
of this grammar. -/

namespace FastDdsSpy.Json

/-- Four hexadecimal digits and their number. -/
inductive HexText : Text → ℕ → Prop
  | digits {c₁ c₂ c₃ c₄ d₁ d₂ d₃ d₄} (h₁ : hexValue c₁ = some d₁) (h₂ : hexValue c₂ = some d₂)
      (h₃ : hexValue c₃ = some d₃) (h₄ : hexValue c₄ = some d₄) :
      HexText [c₁, c₂, c₃, c₄] (((d₁ * 16 + d₂) * 16 + d₃) * 16 + d₄)

/-- A character after a backslash. -/
inductive EscapeText : Text → Char → Prop
  | quote : EscapeText ['"'] '"'
  | backslash : EscapeText ['\\'] '\\'
  | slash : EscapeText ['/'] '/'
  | backspace : EscapeText ['b'] '\x08'
  | formFeed : EscapeText ['f'] '\x0C'
  | newline : EscapeText ['n'] '\n'
  | carriageReturn : EscapeText ['r'] '\r'
  | tab : EscapeText ['t'] '\t'
  | codePoint {digits n} (h : HexText digits n) (hn : n < 0xD800 ∨ 0xDFFF < n) :
      EscapeText ('u' :: digits) (.ofNat n)
  | surrogates {high low m n} (hhigh : HexText high m) (hlow : HexText low n)
      (hm : 0xD800 ≤ m ∧ m ≤ 0xDBFF) (hn : 0xDC00 ≤ n ∧ n ≤ 0xDFFF) :
      EscapeText ('u' :: (high ++ '\\' :: 'u' :: low))
        (.ofNat (0x10000 + (m - 0xD800) * 0x400 + (n - 0xDC00)))

/-- The text between the quotes of a string. -/
inductive StringText : Text → Text → Prop
  | nil : StringText [] []
  | plain {c text value} (hcontrol : 0x1F < c.toNat) (hquote : c ≠ '"') (hbackslash : c ≠ '\\')
      (h : StringText text value) : StringText (c :: text) (c :: value)
  | escape {seq c text value} (hc : EscapeText seq c) (h : StringText text value) :
      StringText ('\\' :: (seq ++ text)) (c :: value)

variable {text rest value : Text} {c : Char} {n : ℕ}

/-! ## Escapes -/

theorem getCodepoint_complete {digits : Text} (h : HexText digits n) (rest : Text) :
    getCodepoint (digits ++ rest) = some (n, rest) := by
  cases h with
  | digits h₁ h₂ h₃ h₄ =>
      simp only [List.cons_append, List.nil_append, getCodepoint, h₁, h₂, h₃, h₄, Option.some.injEq,
        Prod.mk.injEq, and_true]
      omega

theorem getCodepoint_sound (h : getCodepoint text = some (n, rest)) :
    ∃ digits, text = digits ++ rest ∧ HexText digits n := by
  unfold getCodepoint at h
  split at h
  · next c₁ c₂ c₃ c₄ rest' =>
      split at h
      · next d₁ d₂ d₃ d₄ h₁ h₂ h₃ h₄ =>
          cases h
          have hsum : d₁ * 0x1000 + d₂ * 0x100 + d₃ * 0x10 + d₄ =
              ((d₁ * 16 + d₂) * 16 + d₃) * 16 + d₄ := by omega
          rw [hsum]
          exact ⟨[c₁, c₂, c₃, c₄], rfl, .digits h₁ h₂ h₃ h₄⟩
      · simp at h
  · simp at h

/-- The code point of a surrogate pair, as the scanner computes it. -/
theorem surrogates_eq {m n : ℕ} (hm : 0xD800 ≤ m) (hn : 0xDC00 ≤ n) :
    m * 0x400 + n - 0x35FDC00 = 0x10000 + (m - 0xD800) * 0x400 + (n - 0xDC00) := by
  omega

theorem scanEscape_complete {seq : Text} (h : EscapeText seq c) (rest : Text) :
    scanEscape (seq ++ rest) = some (c, rest) := by
  cases h with
  | @codePoint digits n hdigits hn =>
      have hhigh : ¬ (0xD800 ≤ n ∧ n ≤ 0xDBFF) := by omega
      have hlow : ¬ (0xDC00 ≤ n ∧ n ≤ 0xDFFF) := by omega
      simp only [List.cons_append, scanEscape, scanUnicode, getCodepoint_complete hdigits,
        if_neg hhigh, if_neg hlow]
  | surrogates hhigh hlow hm hn =>
      simp only [List.cons_append, List.append_assoc, scanEscape, scanUnicode,
        getCodepoint_complete hhigh, getCodepoint_complete hlow, if_pos hm, if_pos hn,
        surrogates_eq hm.1 hn.1]
  | _ => rfl

theorem scanUnicode_sound (h : scanUnicode text = some (c, rest)) :
    ∃ seq, text = seq ++ rest ∧ EscapeText ('u' :: seq) c := by
  unfold scanUnicode at h
  split at h
  · simp at h
  · next m rest₁ hfirst =>
      obtain ⟨high, rfl, hhigh⟩ := getCodepoint_sound hfirst
      split at h
      · next hm =>
          split at h
          · next rest₂ =>
              split at h
              · simp at h
              · next n rest₃ hsecond =>
                  obtain ⟨low, rfl, hlow⟩ := getCodepoint_sound hsecond
                  split at h
                  · next hn =>
                      simp only [Option.some.injEq, Prod.mk.injEq] at h
                      obtain ⟨rfl, rfl⟩ := h
                      rw [surrogates_eq hm.1 hn.1]
                      exact ⟨high ++ '\\' :: 'u' :: low, by simp, .surrogates hhigh hlow hm hn⟩
                  · simp at h
          · simp at h
      · next hm =>
          split at h
          · simp at h
          · next hn =>
              simp only [Option.some.injEq, Prod.mk.injEq] at h
              obtain ⟨rfl, rfl⟩ := h
              exact ⟨high, rfl, .codePoint hhigh (by omega)⟩

theorem scanEscape_sound (h : scanEscape text = some (c, rest)) :
    ∃ seq, text = seq ++ rest ∧ EscapeText seq c := by
  unfold scanEscape at h
  split at h
  case h_9 =>
      obtain ⟨seq, rfl, hseq⟩ := scanUnicode_sound h
      exact ⟨'u' :: seq, rfl, hseq⟩
  case h_10 => simp at h
  all_goals
    cases h
    exact ⟨[_], rfl, by constructor⟩

/-! ## Strings -/

theorem scanCharacters_complete (h : StringText text value) (rest : Text) :
    scanCharacters (text ++ '"' :: rest) = some (value, rest) := by
  induction h with
  | nil => rw [List.nil_append, scanCharacters]
  | @plain c text value hcontrol hquote hbackslash h ih =>
      rw [List.cons_append, scanCharacters, if_neg (not_le.mpr hcontrol), ih]
      · rfl
      · exact hquote
      · exact hbackslash
  | escape hc h ih =>
      rw [List.cons_append, List.append_assoc, scanCharacters_backslash (scanEscape_complete hc _),
        ih]
      rfl

theorem scanCharacters_sound (h : scanCharacters text = some (value, rest)) :
    ∃ body, text = body ++ '"' :: rest ∧ StringText body value := by
  fun_induction scanCharacters text generalizing value with
  | case1 => simp at h
  | case2 =>
      cases h
      exact ⟨[], rfl, .nil⟩
  | case3 => simp at h
  | case4 text c tail hescape ih =>
      obtain ⟨⟨v, r⟩, htail, hr⟩ := Option.map_eq_some_iff.mp h
      cases hr
      obtain ⟨seq, rfl, hseq⟩ := scanEscape_sound hescape
      obtain ⟨body, rfl, hbody⟩ := ih htail
      exact ⟨'\\' :: (seq ++ body), by simp, .escape hseq hbody⟩
  | case5 => simp at h
  | case6 c tail hquote hbackslash hcontrol ih =>
      obtain ⟨⟨v, r⟩, htail, hr⟩ := Option.map_eq_some_iff.mp h
      cases hr
      obtain ⟨body, rfl, hbody⟩ := ih htail
      exact ⟨c :: body, rfl, .plain (not_le.mp hcontrol) hquote hbackslash hbody⟩

end FastDdsSpy.Json
