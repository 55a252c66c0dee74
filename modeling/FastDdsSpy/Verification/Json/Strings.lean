import FastDdsSpy.Model.JsonString

/-! # Strings are read back

The scanner undoes every escape of `dump_escaped`, and stops at the closing quote. -/

namespace FastDdsSpy.Json

theorem hexValue_digitChar : ∀ d < 16, hexValue d.digitChar = some d := by decide

theorem getCodepoint_hex4 {n : ℕ} (h : n < 0x10000) (rest : Text) :
    getCodepoint (hex4 n ++ rest) = some (n, rest) := by
  have hdigit (m : ℕ) : hexValue (m % 16).digitChar = some (m % 16) :=
    hexValue_digitChar _ (Nat.mod_lt m (by decide))
  simp only [hex4, List.cons_append, List.nil_append, getCodepoint, hdigit]
  congr
  omega

/-- The escapes of control characters. -/
theorem scanEscape_hex4 {c : Char} (h : c.toNat ≤ 0x1F) (rest : Text) :
    scanEscape ('u' :: hex4 c.toNat ++ rest) = some (c, rest) := by
  have hlt : c.toNat < 0x10000 := by omega
  have hhigh : ¬ (0xD800 ≤ c.toNat ∧ c.toNat ≤ 0xDBFF) := by omega
  have hlow : ¬ (0xDC00 ≤ c.toNat ∧ c.toNat ≤ 0xDFFF) := by omega
  simp only [List.cons_append, scanEscape, scanUnicode, getCodepoint_hex4 hlt, if_neg hhigh,
    if_neg hlow, Char.ofNat_toNat]

theorem scanCharacters_backslash {text rest : Text} {c : Char}
    (h : scanEscape text = some (c, rest)) :
    scanCharacters ('\\' :: text) = (scanCharacters rest).map (Prod.map (c :: ·) id) := by
  rw [scanCharacters]
  split
  · next hnone => simp [h] at hnone
  · next hsome =>
      cases h.symm.trans hsome
      rfl

theorem scanCharacters_escape (c : Char) (rest : Text) :
    scanCharacters (escape c ++ rest) = (scanCharacters rest).map (Prod.map (c :: ·) id) := by
  unfold escape
  split
  case h_8 _ _ _ _ _ hquote hbackslash =>
      split
      · next hcontrol => exact scanCharacters_backslash (scanEscape_hex4 hcontrol rest)
      · next hcontrol =>
          rw [List.singleton_append, scanCharacters, if_neg hcontrol]
          · exact hquote
          · exact hbackslash
  all_goals exact scanCharacters_backslash rfl

theorem scanString_dumpString (s : String) (rest : Text) :
    scanString (dumpString s ++ rest) = some (s, rest) := by
  have hscan (value : Text) :
      scanCharacters (value.flatMap escape ++ '"' :: rest) = some (value, rest) := by
    induction value with
    | nil => rw [List.flatMap_nil, List.nil_append, scanCharacters]
    | cons c value ih =>
        rw [List.flatMap_cons, List.append_assoc, scanCharacters_escape, ih]
        rfl
  simp [dumpString, scanString, hscan]

end FastDdsSpy.Json
