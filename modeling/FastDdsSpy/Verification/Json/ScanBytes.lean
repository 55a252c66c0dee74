import FastDdsSpy.Model.JsonBytes
import FastDdsSpy.Verification.Json.StringGrammar

/-! # Strings that are read as bytes

On bytes, `scan_string` reads exactly the encodings of the strings of the grammar, and what it
leaves in `token_buffer` is the encoding of their value. -/

namespace FastDdsSpy.Json

open Utf8

variable {input rest added : Bytes} {text value : Text} {c : Char} {n : ℕ}

/-! ## Escapes -/

/-- The digits are ASCII characters. -/
theorem toNat_le_of_hexValue (h : hexValue c = some n) : c.toNat ≤ 0x7F := by
  unfold hexValue at h
  split at h
  · next hc => exact (show c.toNat ≤ '9'.toNat from hc.2).trans (by decide)
  split at h
  · next hc => exact (show c.toNat ≤ 'F'.toNat from hc.2).trans (by decide)
  split at h
  · next hc => exact (show c.toNat ≤ 'f'.toNat from hc.2).trans (by decide)
  · cases h

/-- The value of a byte that is a digit. -/
def hexByte (byte : UInt8) : Option ℕ := hexValue (Char.ofNat byte.toNat)

theorem hexValue_ofNat : ∀ n < 256, hexValue (Char.ofNat n) =
    if 0x30 ≤ n ∧ n ≤ 0x39 then some (n - 0x30)
    else if 0x41 ≤ n ∧ n ≤ 0x46 then some (n - 0x37)
    else if 0x61 ≤ n ∧ n ≤ 0x66 then some (n - 0x57)
    else none := by
  decide +kernel

/-- A step of the loop over the digits. -/
theorem getCodepointBytes_cons_iff {codepoint factor : ℕ} {factors : List ℕ} :
    getCodepointBytes codepoint (factor :: factors) input = some (n, rest) ↔
      ∃ byte input' d, input = byte :: input' ∧ hexByte byte = some d ∧
        getCodepointBytes (codepoint + d <<< factor) factors input' = some (n, rest) := by
  cases input with
  | nil => simp [getCodepointBytes]
  | cons current input =>
      rw [getCodepointBytes]
      have hbyte := hexValue_ofNat current.toNat current.toNat_lt
      rw [← hexByte] at hbyte
      constructor
      · intro h
        split_ifs at h hbyte
        all_goals exact ⟨current, input, _, rfl, hbyte, h⟩
      · intro h
        obtain ⟨byte, input', d, hinput, hd, h⟩ := h
        cases hinput
        rw [hd] at hbyte
        split_ifs at hbyte ⊢
        all_goals
          cases hbyte
          exact h

theorem hexByte_ofNat (h : hexValue c = some n) : hexByte (UInt8.ofNat c.toNat) = some n := by
  have hle := toNat_le_of_hexValue h
  rw [hexByte, UInt8.toNat_ofNat', Nat.mod_eq_of_lt (by omega), Char.ofNat_toNat]
  exact h

theorem utf8EncodeChar_of_hexByte {byte : UInt8} (h : hexByte byte = some n) :
    String.utf8EncodeChar (Char.ofNat byte.toNat) = [byte] := by
  have hlt := byte.toNat_lt
  rw [utf8EncodeChar_ascii (toNat_le_of_hexValue h), toNat_ofNat (.inl (by omega)),
    UInt8.ofNat_toNat]

theorem shiftLeft_sum (d₁ d₂ d₃ d₄ : ℕ) :
    0 + d₁ <<< 12 + d₂ <<< 8 + d₃ <<< 4 + d₄ <<< 0 = ((d₁ * 16 + d₂) * 16 + d₃) * 16 + d₄ := by
  simp only [Nat.shiftLeft_eq]
  omega

theorem getCodepointBytes_iff :
    getCodepointBytes 0 [12, 8, 4, 0] input = some (n, rest) ↔
      ∃ digits, HexText digits n ∧ input = encode digits ++ rest := by
  constructor
  · intro h
    obtain ⟨b₁, _, d₁, rfl, h₁, h⟩ := getCodepointBytes_cons_iff.mp h
    obtain ⟨b₂, _, d₂, rfl, h₂, h⟩ := getCodepointBytes_cons_iff.mp h
    obtain ⟨b₃, _, d₃, rfl, h₃, h⟩ := getCodepointBytes_cons_iff.mp h
    obtain ⟨b₄, _, d₄, rfl, h₄, h⟩ := getCodepointBytes_cons_iff.mp h
    cases h
    rw [shiftLeft_sum]
    refine ⟨_, .digits h₁ h₂ h₃ h₄, ?_⟩
    simp only [encode_cons, encode_nil, utf8EncodeChar_of_hexByte h₁, utf8EncodeChar_of_hexByte h₂,
      utf8EncodeChar_of_hexByte h₃, utf8EncodeChar_of_hexByte h₄, List.cons_append, List.nil_append]
  · intro h
    obtain ⟨digits, hdigits, rfl⟩ := h
    cases hdigits with
    | digits h₁ h₂ h₃ h₄ =>
        simp only [encode_cons, encode_nil, utf8EncodeChar_ascii (toNat_le_of_hexValue h₁),
          utf8EncodeChar_ascii (toNat_le_of_hexValue h₂),
          utf8EncodeChar_ascii (toNat_le_of_hexValue h₃),
          utf8EncodeChar_ascii (toNat_le_of_hexValue h₄), List.cons_append, List.nil_append]
        refine getCodepointBytes_cons_iff.mpr ⟨_, _, _, rfl, hexByte_ofNat h₁, ?_⟩
        refine getCodepointBytes_cons_iff.mpr ⟨_, _, _, rfl, hexByte_ofNat h₂, ?_⟩
        refine getCodepointBytes_cons_iff.mpr ⟨_, _, _, rfl, hexByte_ofNat h₃, ?_⟩
        refine getCodepointBytes_cons_iff.mpr ⟨_, _, _, rfl, hexByte_ofNat h₄, ?_⟩
        rw [shiftLeft_sum, getCodepointBytes]

private theorem or_eq_add (a b i : ℕ) (h : b < 2 ^ i) : 2 ^ i * a ||| b = b + 2 ^ i * a := by
  rw [← Nat.two_pow_add_eq_or_of_lt h, Nat.add_comm]

theorem getCodepointBytes_encode {digits : Text} (h : HexText digits n) (rest : Bytes) :
    getCodepointBytes 0 [12, 8, 4, 0] (encode digits ++ rest) = some (n, rest) :=
  getCodepointBytes_iff.mpr ⟨digits, h, rfl⟩

/-- The bytes that the scanner puts together are those of the code point. -/
theorem codepointBytes_eq (h : n < 0x110000) : codepointBytes n = bytesOf n := by
  have hmask (m : ℕ) : m &&& 0x3F = m % 0x40 := Nat.and_two_pow_sub_one_eq_mod m 6
  have htail (m : ℕ) : 0x80 ||| m % 0x40 = m % 0x40 + 0x80 :=
    or_eq_add 2 (m % 0x40) 6 (Nat.mod_lt _ (by decide))
  unfold codepointBytes bytesOf
  simp only [hmask, htail, Nat.shiftRight_eq_div_pow]
  by_cases h1 : n < 0x80
  · rw [if_pos h1, if_pos (by omega)]
  by_cases h2 : n ≤ 0x7FF
  · have hfirst : 0xC0 ||| n / 2 ^ 6 = n / 2 ^ 6 + 0xC0 := or_eq_add 3 _ 6 (by omega)
    rw [if_neg h1, if_pos h2, if_neg (by omega), if_pos h2, hfirst,
      show n / 2 ^ 6 = n / 0x40 % 0x20 by omega]
  by_cases h3 : n ≤ 0xFFFF
  · have hfirst : 0xE0 ||| n / 2 ^ 12 = n / 2 ^ 12 + 0xE0 := or_eq_add 7 _ 5 (by omega)
    rw [if_neg h1, if_neg h2, if_pos h3, if_neg (by omega), if_neg h2, if_pos h3, hfirst,
      show n / 2 ^ 12 = n / 0x1000 % 0x10 by omega]
  · have hfirst : 0xF0 ||| n / 2 ^ 18 = n / 2 ^ 18 + 0xF0 := or_eq_add 15 _ 4 (by omega)
    rw [if_neg h1, if_neg h2, if_neg h3, if_neg (by omega), if_neg h2, if_neg h3, hfirst,
      show n / 2 ^ 18 = n / 0x40000 % 0x08 by omega]

theorem codepointBytes_of_valid (h : n.isValidChar) :
    codepointBytes n = String.utf8EncodeChar (Char.ofNat n) := by
  rw [utf8EncodeChar_eq, toNat_ofNat h]
  unfold Nat.isValidChar at h
  exact codepointBytes_eq (by omega)

theorem lt_of_hexValue (h : hexValue c = some n) : n < 16 := by
  unfold hexValue at h
  split at h
  · next hc =>
      have hle : c.toNat ≤ '9'.toNat := hc.2
      have hnine : '9'.toNat = 57 := rfl
      cases h
      omega
  split at h
  · next hc =>
      have hle : c.toNat ≤ 'F'.toNat := hc.2
      have hletter : 'F'.toNat = 70 := rfl
      cases h
      omega
  split at h
  · next hc =>
      have hle : c.toNat ≤ 'f'.toNat := hc.2
      have hletter : 'f'.toNat = 102 := rfl
      cases h
      omega
  · cases h

theorem hexText_lt {digits : Text} (h : HexText digits n) : n < 0x10000 := by
  cases h with
  | digits h₁ h₂ h₃ h₄ =>
      have hlt₁ := lt_of_hexValue h₁
      have hlt₂ := lt_of_hexValue h₂
      have hlt₃ := lt_of_hexValue h₃
      have hlt₄ := lt_of_hexValue h₄
      omega

/-- The code point of a surrogate pair. -/
theorem surrogates_shift {m n : ℕ} (hm : 0xD800 ≤ m) (hn : 0xDC00 ≤ n) :
    m <<< 10 + n - 0x35FDC00 = 0x10000 + (m - 0xD800) * 0x400 + (n - 0xDC00) := by
  rw [Nat.shiftLeft_eq]
  exact surrogates_eq hm hn

theorem scanUnicodeBytes_iff :
    scanUnicodeBytes input = some (added, rest) ↔
      ∃ seq c, EscapeText ('u' :: seq) c ∧ input = encode seq ++ rest ∧
        added = String.utf8EncodeChar c := by
  constructor
  · intro h
    unfold scanUnicodeBytes at h
    split at h
    · cases h
    · next m rest₁ hfirst =>
        obtain ⟨high, hhigh, rfl⟩ := getCodepointBytes_iff.mp hfirst
        split at h
        · next hm =>
            split at h
            · next backslash u rest₂ =>
                split at h
                · next hu =>
                    split at h
                    · cases h
                    · next n rest₃ hsecond =>
                        obtain ⟨low, hlow, rfl⟩ := getCodepointBytes_iff.mp hsecond
                        split at h
                        · next hn =>
                            simp only [Option.some.injEq, Prod.mk.injEq] at h
                            obtain ⟨rfl, rfl⟩ := h
                            obtain ⟨rfl, rfl⟩ := hu
                            rw [surrogates_shift hm.1 hn.1]
                            refine ⟨_, _, .surrogates hhigh hlow hm hn, ?_, ?_⟩
                            · rw [encode_append, List.append_assoc]
                              rfl
                            · exact codepointBytes_of_valid (.inr (by omega))
                        · cases h
                · cases h
            · cases h
        · next hm =>
            split at h
            · cases h
            · next hn =>
                cases h
                have hlt := hexText_lt hhigh
                have hvalid : m < 0xD800 ∨ 0xDFFF < m := by omega
                refine ⟨high, _, .codePoint hhigh hvalid, rfl, ?_⟩
                exact codepointBytes_of_valid (hvalid.imp_right fun h => ⟨h, by omega⟩)
  · intro h
    obtain ⟨seq, c, hseq, rfl, rfl⟩ := h
    cases hseq with
    | @codePoint digits n hdigits hn =>
        have hlt := hexText_lt hdigits
        rw [scanUnicodeBytes, getCodepointBytes_encode hdigits]
        simp only [if_neg (show ¬ (0xD800 ≤ n ∧ n ≤ 0xDBFF) by omega),
          if_neg (show ¬ (0xDC00 ≤ n ∧ n ≤ 0xDFFF) by omega)]
        rw [codepointBytes_of_valid (hn.imp_right fun h => ⟨h, by omega⟩)]
    | @surrogates high low m n hhigh hlow hm hn =>
        have hsecond : encode ('\\' :: 'u' :: low) ++ rest = 0x5C :: 0x75 :: (encode low ++ rest) :=
          rfl
        rw [encode_append, List.append_assoc, hsecond, scanUnicodeBytes,
          getCodepointBytes_encode hhigh]
        simp only [if_pos hm, and_self, if_true, getCodepointBytes_encode hlow, if_pos hn]
        rw [surrogates_shift hm.1 hn.1, codepointBytes_of_valid (.inr (by omega))]

/-- The table of the simple escapes is the grammar's. -/
theorem mem_simpleEscapes : ∀ entry ∈ simpleEscapes,
    EscapeText [Char.ofNat entry.1.toNat] (Char.ofNat entry.2.toNat) ∧
      entry.1.toNat < 0x80 ∧ entry.2.toNat < 0x80 := by
  simp only [simpleEscapes, List.forall_mem_cons]
  exact ⟨⟨.quote, by decide⟩, ⟨.backslash, by decide⟩, ⟨.slash, by decide⟩, ⟨.backspace, by decide⟩,
    ⟨.formFeed, by decide⟩, ⟨.newline, by decide⟩, ⟨.carriageReturn, by decide⟩, ⟨.tab, by decide⟩,
    by simp⟩

theorem utf8EncodeChar_ofNat {byte : UInt8} (h : byte.toNat < 0x80) :
    String.utf8EncodeChar (Char.ofNat byte.toNat) = [byte] := by
  have hvalid : byte.toNat.isValidChar := .inl (by omega)
  rw [utf8EncodeChar_ascii (by rw [toNat_ofNat hvalid]; omega), toNat_ofNat hvalid,
    UInt8.ofNat_toNat]

theorem scanEscapeBytes_sound (h : scanEscapeBytes input = some (added, rest)) :
    ∃ seq c, EscapeText seq c ∧ input = encode seq ++ rest ∧ added = String.utf8EncodeChar c := by
  unfold scanEscapeBytes at h
  split at h
  · cases h
  · next current input =>
      split at h
      · next byte hbyte =>
          cases h
          obtain ⟨l₁, l₂, hl, -⟩ := List.lookup_eq_some_iff.mp hbyte
          obtain ⟨hescape, hcurrent, hlt⟩ := mem_simpleEscapes (current, byte) (by simp [hl])
          refine ⟨_, _, hescape, ?_, (utf8EncodeChar_ofNat hlt).symm⟩
          rw [encode_cons, utf8EncodeChar_ofNat hcurrent]
          rfl
      · split at h
        · next hu =>
            obtain ⟨seq, c, hseq, rfl, hadded⟩ := scanUnicodeBytes_iff.mp h
            refine ⟨_, _, hseq, ?_, hadded⟩
            rw [hu]
            rfl
        · cases h

theorem scanEscapeBytes_complete {seq : Text} (h : EscapeText seq c) (rest : Bytes) :
    scanEscapeBytes (encode seq ++ rest) = some (String.utf8EncodeChar c, rest) := by
  have hunicode {seq : Text} (h : EscapeText ('u' :: seq) c) :
      scanEscapeBytes (encode ('u' :: seq) ++ rest) = some (String.utf8EncodeChar c, rest) := by
    have hscan : scanUnicodeBytes (encode seq ++ rest) = some (String.utf8EncodeChar c, rest) :=
      scanUnicodeBytes_iff.mpr ⟨seq, c, h, rfl, rfl⟩
    exact hscan
  cases h with
  | codePoint hdigits hn => exact hunicode (.codePoint hdigits hn)
  | surrogates hhigh hlow hm hn => exact hunicode (.surrogates hhigh hlow hm hn)
  | _ => rfl

/-! ## Characters -/

theorem bytesInRange_iff {ranges : List (ℕ × ℕ)} :
    bytesInRange ranges input = some (added, rest) ↔
      input = added ++ rest ∧ List.Forall₂ InRange ranges added := by
  induction ranges generalizing input added with
  | nil =>
      simp only [bytesInRange, Option.some.injEq, Prod.mk.injEq, List.forall₂_nil_left_iff]
      constructor
      · intro h
        obtain ⟨rfl, rfl⟩ := h
        exact ⟨rfl, rfl⟩
      · intro h
        obtain ⟨rfl, rfl⟩ := h
        exact ⟨rfl, rfl⟩
  | cons range ranges ih =>
      cases input with
      | nil =>
          simp only [bytesInRange, reduceCtorEq, false_iff, not_and]
          intro hinput hin
          cases hin
          cases hinput
      | cons current input =>
          rw [bytesInRange]
          constructor
          · intro h
            split at h
            · next hrange =>
                obtain ⟨⟨bytes, rest'⟩, hbytes, hr⟩ := Option.map_eq_some_iff.mp h
                cases hr
                obtain ⟨rfl, hin⟩ := ih.mp hbytes
                exact ⟨rfl, .cons hrange hin⟩
            · cases h
          · intro h
            obtain ⟨hinput, hin⟩ := h
            cases hin with
            | @cons _ byte _ bytes hb hbytes =>
                obtain ⟨rfl, rfl⟩ := List.cons.inj (hinput.trans List.cons_append)
                rw [if_pos (show _ ∧ _ from hb), ih.mpr ⟨rfl, hbytes⟩]
                rfl

theorem nextByteInRange_iff {current : UInt8} {ranges : List (ℕ × ℕ)} :
    nextByteInRange current ranges input = some (added, rest) ↔
      ∃ bytes, added = current :: bytes ∧ input = bytes ++ rest ∧
        List.Forall₂ InRange ranges bytes := by
  rw [nextByteInRange, Option.map_eq_some_iff]
  constructor
  · intro h
    obtain ⟨⟨bytes, rest'⟩, hbytes, hr⟩ := h
    cases hr
    exact ⟨bytes, rfl, bytesInRange_iff.mp hbytes⟩
  · intro h
    obtain ⟨bytes, rfl, hbytes⟩ := h
    exact ⟨(bytes, rest), bytesInRange_iff.mpr hbytes, rfl⟩

/-- The ranges in the cases of the `switch` from 80 on. -/
def switchRanges (current : UInt8) : Option (List (ℕ × ℕ)) :=
  if 0xC2 ≤ current ∧ current ≤ 0xDF then some [(0x80, 0xBF)]
  else if current = 0xE0 then some [(0xA0, 0xBF), (0x80, 0xBF)]
  else if (0xE1 ≤ current ∧ current ≤ 0xEC) ∨ current = 0xEE ∨ current = 0xEF then
    some [(0x80, 0xBF), (0x80, 0xBF)]
  else if current = 0xED then some [(0x80, 0x9F), (0x80, 0xBF)]
  else if current = 0xF0 then some [(0x90, 0xBF), (0x80, 0xBF), (0x80, 0xBF)]
  else if 0xF1 ≤ current ∧ current ≤ 0xF3 then some [(0x80, 0xBF), (0x80, 0xBF), (0x80, 0xBF)]
  else if current = 0xF4 then some [(0x80, 0x8F), (0x80, 0xBF), (0x80, 0xBF)]
  else none

/-- They are the table of well-formed sequences. -/
theorem switchRanges_eq : ∀ n < 256, 0x7F < n → switchRanges (UInt8.ofNat n) = trailing n := by
  decide +kernel

theorem scanCharacterBytes_eq {current : UInt8} (h : 0x7F < current.toNat) (input : Bytes) :
    scanCharacterBytes current input =
      (trailing current.toNat).bind fun ranges => nextByteInRange current ranges input := by
  have hbackslash : current ≠ 0x5C := by
    intro heq
    rw [heq] at h
    exact absurd h (by decide)
  have hcontrol : ¬ current ≤ 0x1F := by
    simp only [UInt8.le_iff_toNat_le, UInt8.reduceToNat]
    omega
  have hascii : ¬ current ≤ 0x7F := by
    simp only [UInt8.le_iff_toNat_le, UInt8.reduceToNat]
    omega
  rw [← switchRanges_eq current.toNat current.toNat_lt h, UInt8.ofNat_toNat, scanCharacterBytes,
    if_neg hbackslash, if_neg hcontrol, if_neg hascii, switchRanges]
  split_ifs <;> rfl

theorem scanCharacterBytes_sound {current : UInt8} (hquote : current ≠ 0x22)
    (hbackslash : current ≠ 0x5C) (h : scanCharacterBytes current input = some (added, rest)) :
    ∃ c, 0x1F < c.toNat ∧ c ≠ '"' ∧ c ≠ '\\' ∧
      current :: input = String.utf8EncodeChar c ++ rest ∧ added = String.utf8EncodeChar c := by
  by_cases hascii : 0x7F < current.toNat
  · rw [scanCharacterBytes_eq hascii, Option.bind_eq_some_iff] at h
    obtain ⟨ranges, hranges, h⟩ := h
    obtain ⟨bytes, rfl, rfl, hin⟩ := nextByteInRange_iff.mp h
    obtain ⟨c, hc⟩ := wellFormed_iff.mp ⟨ranges, hranges, hin⟩
    have hlt := (lt_first_iff hc).mp hascii
    refine ⟨c, by omega, ?_, ?_, by rw [hc]; rfl, hc.symm⟩
    · intro heq
      rw [heq] at hlt
      exact absurd hlt (by decide)
    · intro heq
      rw [heq] at hlt
      exact absurd hlt (by decide)
  · have hle : current ≤ 0x7F := UInt8.le_iff_toNat_le.mpr (not_lt.mp hascii)
    have hencode := utf8EncodeChar_ofNat (Nat.lt_succ_of_le (not_lt.mp hascii))
    have hvalue : (Char.ofNat current.toNat).toNat = current.toNat :=
      toNat_ofNat (.inl (by omega))
    rw [scanCharacterBytes, if_neg hbackslash] at h
    split at h
    · cases h
    · next hcontrol =>
        cases h
        refine ⟨Char.ofNat current.toNat, ?_, ?_, ?_, by rw [hencode]; rfl, hencode.symm⟩
        · have hnot : ¬ current.toNat ≤ (0x1F : UInt8).toNat :=
            mt UInt8.le_iff_toNat_le.mpr hcontrol
          rw [hvalue]
          exact not_le.mp hnot
        · intro heq
          rw [heq] at hvalue
          exact hquote (UInt8.toNat_inj.mp hvalue.symm)
        · intro heq
          rw [heq] at hvalue
          exact hbackslash (UInt8.toNat_inj.mp hvalue.symm)

theorem scanCharacterBytes_complete {first : UInt8} {bytes : Bytes} (hcontrol : 0x1F < c.toNat)
    (hbackslash : c ≠ '\\') (hc : String.utf8EncodeChar c = first :: bytes) (rest : Bytes) :
    scanCharacterBytes first (bytes ++ rest) = some (first :: bytes, rest) := by
  by_cases hascii : 0x7F < first.toNat
  · obtain ⟨ranges, hranges, hin⟩ := (wellFormed_iff.mpr ⟨c, hc⟩).exists_ranges
    rw [scanCharacterBytes_eq hascii, hranges, Option.bind_some]
    exact nextByteInRange_iff.mpr ⟨bytes, rfl, rfl, hin⟩
  · have hle : c.toNat ≤ 0x7F := not_lt.mp (mt (lt_first_iff hc).mpr hascii)
    rw [utf8EncodeChar_ascii hle] at hc
    cases hc
    have hvalue : (UInt8.ofNat c.toNat).toNat = c.toNat := by
      rw [UInt8.toNat_ofNat']
      omega
    rw [scanCharacterBytes, if_neg, if_neg, if_pos]
    · rfl
    · rw [UInt8.le_iff_toNat_le, hvalue]
      exact hle
    · rw [UInt8.le_iff_toNat_le, hvalue]
      exact not_le.mpr hcontrol
    · intro heq
      rw [heq] at hvalue
      exact hbackslash (Char.toNat_inj.mp hvalue.symm)

/-! ## Strings -/

theorem scanStringBytes_sound {buffer : Bytes} (h : scanStringBytes input = some (buffer, rest)) :
    ∃ text value, StringText text value ∧ input = encode text ++ 0x22 :: rest ∧
      buffer = encode value := by
  fun_induction scanStringBytes input generalizing buffer with
  | case1 => cases h
  | case2 input =>
      cases h
      exact ⟨[], [], .nil, rfl, rfl⟩
  | case3 => cases h
  | case4 current input hquote added rest₁ hcharacter ih =>
      obtain ⟨⟨buffer', rest'⟩, htail, hr⟩ := Option.map_eq_some_iff.mp h
      cases hr
      obtain ⟨text, value, htext, rfl, rfl⟩ := ih htail
      by_cases hbackslash : current = 0x5C
      · rw [scanCharacterBytes, if_pos hbackslash] at hcharacter
        obtain ⟨seq, c, hseq, rfl, rfl⟩ := scanEscapeBytes_sound hcharacter
        refine ⟨'\\' :: (seq ++ text), c :: value, .escape hseq htext, ?_, rfl⟩
        rw [hbackslash, encode_cons, encode_append, List.append_assoc, List.append_assoc]
        rfl
      · obtain ⟨c, hcontrol, hc, hc', hinput, rfl⟩ :=
          scanCharacterBytes_sound hquote hbackslash hcharacter
        refine ⟨c :: text, c :: value, .plain hcontrol hc hc' htext, ?_, rfl⟩
        rw [hinput, encode_cons, List.append_assoc]

theorem scanStringBytes_cons {current : UInt8} (hquote : current ≠ 0x22)
    (h : scanCharacterBytes current input = some (added, rest)) :
    scanStringBytes (current :: input) =
      (scanStringBytes rest).map (Prod.map (added ++ ·) id) := by
  rw [scanStringBytes, if_neg hquote]
  split
  · next hnone => cases hnone.symm.trans h
  · next hsome =>
      cases hsome.symm.trans h
      rfl

theorem scanStringBytes_complete (h : StringText text value) (rest : Bytes) :
    scanStringBytes (encode text ++ 0x22 :: rest) = some (encode value, rest) := by
  induction h with
  | nil => simp [scanStringBytes]
  | @plain c text value hcontrol hquote hbackslash h ih =>
      cases hc : String.utf8EncodeChar c with
      | nil => exact absurd hc String.utf8EncodeChar_ne_nil
      | cons first bytes =>
          have hfirst : first ≠ 0x22 := by
            intro heq
            have hvalue := toNat_first hc (by rw [heq]; decide)
            rw [heq] at hvalue
            exact hquote (Char.toNat_inj.mp hvalue.symm)
          have hcharacter :=
            scanCharacterBytes_complete hcontrol hbackslash hc (encode text ++ 0x22 :: rest)
          rw [encode_cons, hc, List.append_assoc, List.cons_append,
            scanStringBytes_cons hfirst hcharacter, ih, encode_cons, hc]
          rfl
  | @escape seq c text value hc h ih =>
      have hcharacter : scanCharacterBytes 0x5C (encode seq ++ (encode text ++ 0x22 :: rest)) =
          some (String.utf8EncodeChar c, encode text ++ 0x22 :: rest) :=
        scanEscapeBytes_complete hc _
      have hstring := scanStringBytes_cons (by decide) hcharacter
      rw [ih] at hstring
      rw [encode_cons, encode_append, List.append_assoc, List.append_assoc]
      exact hstring

/-- The strings that the scanner reads are the encodings of those of the grammar. In particular,
ill-formed UTF-8 is no part of them. -/
theorem scanStringBytes_iff (input buffer rest : Bytes) :
    scanStringBytes input = some (buffer, rest) ↔
      ∃ text value, StringText text value ∧ input = encode text ++ 0x22 :: rest ∧
        buffer = encode value := by
  constructor
  · exact scanStringBytes_sound
  · intro h
    obtain ⟨text, value, htext, rfl, rfl⟩ := h
    exact scanStringBytes_complete htext rest

end FastDdsSpy.Json
