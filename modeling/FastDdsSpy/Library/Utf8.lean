import Mathlib.Data.List.Forall2
import Mathlib.Data.List.Lex
import Mathlib.Data.String.Basic

/-! # UTF-8

The well-formed byte sequences of one character, as the ranges for the bytes after each first
byte, and the code point that such a sequence has. The ranges leave out the overlong forms and
the surrogates. -/

namespace Utf8

/-- The bytes of a text. -/
def encode (text : List Char) : List UInt8 := text.flatMap String.utf8EncodeChar

@[simp] theorem encode_nil : encode [] = [] := rfl

@[simp] theorem encode_cons (c : Char) (text : List Char) :
    encode (c :: text) = String.utf8EncodeChar c ++ encode text := rfl

@[simp] theorem encode_append (text text' : List Char) :
    encode (text ++ text') = encode text ++ encode text' :=
  List.flatMap_append

/-! ## The table of well-formed sequences -/

def InRange (range : ℕ × ℕ) (byte : UInt8) : Prop :=
  range.1 ≤ byte.toNat ∧ byte.toNat ≤ range.2

instance (range : ℕ × ℕ) (byte : UInt8) : Decidable (InRange range byte) :=
  inferInstanceAs (Decidable (_ ∧ _))

/-- Any continuation byte. -/
def tail : ℕ × ℕ := (0x80, 0xBF)

/-- The ranges of the bytes after a first byte, if there can be any. -/
def trailing (first : ℕ) : Option (List (ℕ × ℕ)) :=
  if first ≤ 0x7F then some []
  else if first ≤ 0xC1 then none
  else if first ≤ 0xDF then some [tail]
  else if first = 0xE0 then some [(0xA0, 0xBF), tail]
  else if first = 0xED then some [(0x80, 0x9F), tail]
  else if first ≤ 0xEF then some [tail, tail]
  else if first = 0xF0 then some [(0x90, 0xBF), tail, tail]
  else if first ≤ 0xF3 then some [tail, tail, tail]
  else if first = 0xF4 then some [(0x80, 0x8F), tail, tail]
  else none

/-- The bits of the code point in the first byte. -/
def leading (first : ℕ) : ℕ :=
  if first ≤ 0x7F then first
  else if first ≤ 0xDF then first - 0xC0
  else if first ≤ 0xEF then first - 0xE0
  else first - 0xF0

/-- A continuation byte has six more bits. -/
def extend (value : ℕ) (byte : UInt8) : ℕ := value * 64 + byte.toNat % 64

/-- The code point of a sequence. -/
def codePoint (first : UInt8) (bytes : List UInt8) : ℕ := bytes.foldl extend (leading first.toNat)

/-- The bytes of a code point. -/
def bytesOf (n : ℕ) : List UInt8 :=
  if n ≤ 0x7F then [UInt8.ofNat n]
  else if n ≤ 0x7FF then [UInt8.ofNat (n / 0x40 % 0x20 + 0xC0), UInt8.ofNat (n % 0x40 + 0x80)]
  else if n ≤ 0xFFFF then
    [UInt8.ofNat (n / 0x1000 % 0x10 + 0xE0), UInt8.ofNat (n / 0x40 % 0x40 + 0x80),
      UInt8.ofNat (n % 0x40 + 0x80)]
  else
    [UInt8.ofNat (n / 0x40000 % 0x08 + 0xF0), UInt8.ofNat (n / 0x1000 % 0x40 + 0x80),
      UInt8.ofNat (n / 0x40 % 0x40 + 0x80), UInt8.ofNat (n % 0x40 + 0x80)]

theorem utf8EncodeChar_eq (c : Char) : String.utf8EncodeChar c = bytesOf c.toNat := rfl

theorem utf8EncodeChar_ascii {c : Char} (h : c.toNat ≤ 0x7F) :
    String.utf8EncodeChar c = [UInt8.ofNat c.toNat] := by
  rw [utf8EncodeChar_eq, bytesOf, if_pos h]

theorem toNat_ofNat {n : ℕ} (h : n.isValidChar) : (Char.ofNat n).toNat = n := by
  rw [Char.ofNat, dif_pos h]
  rfl

theorem isValidChar_toNat (c : Char) : c.toNat.isValidChar := c.valid

/-- A first byte with the bytes that the table allows after it. -/
structure WellFormed (first : UInt8) (bytes : List UInt8) : Prop where
  exists_ranges : ∃ ranges, trailing first.toNat = some ranges ∧ List.Forall₂ InRange ranges bytes

section Bytes

variable {n : ℕ} {first : UInt8} {bytes bytes' : List UInt8}

private theorem toNat_byte (h : n < 256) : (UInt8.ofNat n).toNat = n := by
  rw [UInt8.toNat_ofNat']
  exact Nat.mod_eq_of_lt h

private theorem inRange_tail (h : n < 64) : InRange tail (UInt8.ofNat (n + 0x80)) := by
  rw [InRange, toNat_byte (by omega), tail]
  omega

private theorem extend_tail (value : ℕ) (h : n < 64) :
    extend value (UInt8.ofNat (n + 0x80)) = value * 64 + n := by
  rw [extend, toNat_byte (by omega)]
  omega

theorem le_of_trailing_nil {first : ℕ} (h : trailing first = some []) : first ≤ 0x7F := by
  unfold trailing at h
  split_ifs at h with hle
  · exact hle
  all_goals simp at h

theorem trailing_two {first : ℕ} (h : 0xC2 ≤ first) (h' : first ≤ 0xDF) :
    trailing first = some [tail] := by
  rw [trailing, if_neg (by omega), if_neg (by omega), if_pos h']

theorem trailing_three {first : ℕ} (h : 0xE1 ≤ first) (h' : first ≤ 0xEF) (hne : first ≠ 0xED) :
    trailing first = some [tail, tail] := by
  rw [trailing, if_neg (by omega), if_neg (by omega), if_neg (by omega), if_neg (by omega),
    if_neg hne, if_pos h']

theorem trailing_four {first : ℕ} (h : 0xF1 ≤ first) (h' : first ≤ 0xF3) :
    trailing first = some [tail, tail, tail] := by
  rw [trailing, if_neg (by omega), if_neg (by omega), if_neg (by omega), if_neg (by omega),
    if_neg (by omega), if_neg (by omega), if_neg (by omega), if_pos h']

/-- The bytes of a character are well formed. -/
theorem wellFormed_of_bytesOf (hvalid : n.isValidChar) (h : bytesOf n = first :: bytes) :
    WellFormed first bytes := by
  constructor
  unfold bytesOf at h
  unfold Nat.isValidChar at hvalid
  by_cases h1 : n ≤ 0x7F
  · rw [if_pos h1] at h
    cases h
    exact ⟨[], by rw [toNat_byte (by omega), trailing, if_pos h1], .nil⟩
  by_cases h2 : n ≤ 0x7FF
  · rw [if_neg h1, if_pos h2] at h
    cases h
    refine ⟨[tail], ?_, ?_⟩
    · rw [toNat_byte (by omega)]
      exact trailing_two (by omega) (by omega)
    · exact .cons (inRange_tail (by omega)) .nil
  by_cases h3 : n ≤ 0xFFFF
  · rw [if_neg h1, if_neg h2, if_pos h3] at h
    cases h
    rw [toNat_byte (by omega)]
    -- the first byte decides about the second one for the least and the greatest of these
    by_cases hlow : n < 0x1000
    · refine ⟨[(0xA0, 0xBF), tail], ?_, .cons ?_ (.cons (inRange_tail (by omega)) .nil)⟩
      · rw [show n / 0x1000 % 0x10 + 0xE0 = 0xE0 by omega]
        rfl
      · rw [InRange, toNat_byte (by omega)]
        omega
    by_cases hsurrogate : 0xD000 ≤ n ∧ n < 0xE000
    · refine ⟨[(0x80, 0x9F), tail], ?_, .cons ?_ (.cons (inRange_tail (by omega)) .nil)⟩
      · rw [show n / 0x1000 % 0x10 + 0xE0 = 0xED by omega]
        rfl
      · rw [InRange, toNat_byte (by omega)]
        omega
    · exact ⟨[tail, tail], trailing_three (by omega) (by omega) (by omega),
        .cons (inRange_tail (by omega)) (.cons (inRange_tail (by omega)) .nil)⟩
  · rw [if_neg h1, if_neg h2, if_neg h3] at h
    cases h
    rw [toNat_byte (by omega)]
    by_cases hlow : n < 0x40000
    · refine ⟨[(0x90, 0xBF), tail, tail], ?_,
        .cons ?_ (.cons (inRange_tail (by omega)) (.cons (inRange_tail (by omega)) .nil))⟩
      · rw [show n / 0x40000 % 0x08 + 0xF0 = 0xF0 by omega]
        rfl
      · rw [InRange, toNat_byte (by omega)]
        omega
    by_cases hhigh : 0x100000 ≤ n
    · refine ⟨[(0x80, 0x8F), tail, tail], ?_,
        .cons ?_ (.cons (inRange_tail (by omega)) (.cons (inRange_tail (by omega)) .nil))⟩
      · rw [show n / 0x40000 % 0x08 + 0xF0 = 0xF4 by omega]
        rfl
      · rw [InRange, toNat_byte (by omega)]
        omega
    · exact ⟨[tail, tail, tail], trailing_four (by omega) (by omega),
        .cons (inRange_tail (by omega))
          (.cons (inRange_tail (by omega)) (.cons (inRange_tail (by omega)) .nil))⟩

/-- The code point of a character's bytes is the character. -/
theorem codePoint_of_bytesOf (hvalid : n.isValidChar) (h : bytesOf n = first :: bytes) :
    codePoint first bytes = n := by
  unfold bytesOf at h
  unfold Nat.isValidChar at hvalid
  by_cases h1 : n ≤ 0x7F
  · rw [if_pos h1] at h
    cases h
    rw [codePoint, List.foldl_nil, toNat_byte (by omega), leading, if_pos h1]
  by_cases h2 : n ≤ 0x7FF
  · rw [if_neg h1, if_pos h2] at h
    cases h
    rw [codePoint, List.foldl_cons, List.foldl_nil, toNat_byte (by omega), extend_tail _ (by omega),
      leading, if_neg (by omega), if_pos (by omega)]
    omega
  by_cases h3 : n ≤ 0xFFFF
  · rw [if_neg h1, if_neg h2, if_pos h3] at h
    cases h
    rw [codePoint, List.foldl_cons, List.foldl_cons, List.foldl_nil, toNat_byte (by omega),
      extend_tail _ (by omega), extend_tail _ (by omega), leading, if_neg (by omega),
      if_neg (by omega), if_pos (by omega)]
    omega
  · rw [if_neg h1, if_neg h2, if_neg h3] at h
    cases h
    rw [codePoint, List.foldl_cons, List.foldl_cons, List.foldl_cons, List.foldl_nil,
      toNat_byte (by omega), extend_tail _ (by omega), extend_tail _ (by omega),
      extend_tail _ (by omega), leading, if_neg (by omega), if_neg (by omega), if_neg (by omega)]
    omega

/-! ### Sequences of each length -/

private theorem ofNat_eq (byte : UInt8) (h : n = byte.toNat) : UInt8.ofNat n = byte := by
  rw [h, UInt8.ofNat_toNat]

private theorem bytesOf_two {b : UInt8} (hn : n = (first.toNat - 0xC0) * 64 + b.toNat % 64)
    (h : 0xC2 ≤ first.toNat) (h' : first.toNat ≤ 0xDF) (hb : InRange tail b) :
    n.isValidChar ∧ bytesOf n = [first, b] := by
  simp only [InRange, tail] at hb
  refine ⟨.inl (by omega), ?_⟩
  rw [bytesOf, if_neg (by omega), if_pos (by omega), ofNat_eq first (by omega),
    ofNat_eq b (by omega)]

private theorem bytesOf_three {b b' : UInt8}
    (hn : n = ((first.toNat - 0xE0) * 64 + b.toNat % 64) * 64 + b'.toNat % 64)
    (h : 0xE0 ≤ first.toNat) (h' : first.toNat ≤ 0xEF) (hb : InRange tail b)
    (hb' : InRange tail b') (hlow : 0x800 ≤ n) (hvalid : n < 0xD800 ∨ 0xDFFF < n) :
    n.isValidChar ∧ bytesOf n = [first, b, b'] := by
  simp only [InRange, tail] at hb hb'
  refine ⟨hvalid.imp_right fun h => ⟨h, by omega⟩, ?_⟩
  rw [bytesOf, if_neg (by omega), if_neg (by omega), if_pos (by omega), ofNat_eq first (by omega),
    ofNat_eq b (by omega), ofNat_eq b' (by omega)]

private theorem bytesOf_four {b b' b'' : UInt8}
    (hn : n = (((first.toNat - 0xF0) * 64 + b.toNat % 64) * 64 + b'.toNat % 64) * 64 +
      b''.toNat % 64)
    (h : 0xF0 ≤ first.toNat) (hb : InRange tail b) (hb' : InRange tail b')
    (hb'' : InRange tail b'') (hlow : 0x10000 ≤ n) (hvalid : n < 0x110000) :
    n.isValidChar ∧ bytesOf n = [first, b, b', b''] := by
  simp only [InRange, tail] at hb hb' hb''
  refine ⟨.inr ⟨by omega, hvalid⟩, ?_⟩
  rw [bytesOf, if_neg (by omega), if_neg (by omega), if_neg (by omega), ofNat_eq first (by omega),
    ofNat_eq b (by omega), ofNat_eq b' (by omega), ofNat_eq b'' (by omega)]

/-- A range inside that of all continuation bytes. -/
private theorem InRange.tail {low high : ℕ} {b : UInt8} (h : InRange (low, high) b)
    (hlow : 0x80 ≤ low) (hhigh : high ≤ 0xBF) : InRange tail b :=
  ⟨hlow.trans h.1, h.2.trans hhigh⟩

private theorem codePoint_three (b b' : UInt8) (h : 0xE0 ≤ first.toNat) (h' : first.toNat ≤ 0xEF) :
    codePoint first [b, b'] =
      ((first.toNat - 0xE0) * 64 + b.toNat % 64) * 64 + b'.toNat % 64 := by
  simp only [codePoint, List.foldl_cons, List.foldl_nil, extend, leading]
  rw [if_neg (by omega), if_neg (by omega), if_pos h']

private theorem codePoint_four (b b' b'' : UInt8) (h : 0xF0 ≤ first.toNat) :
    codePoint first [b, b', b''] =
      (((first.toNat - 0xF0) * 64 + b.toNat % 64) * 64 + b'.toNat % 64) * 64 + b''.toNat % 64 := by
  simp only [codePoint, List.foldl_cons, List.foldl_nil, extend, leading]
  rw [if_neg (by omega), if_neg (by omega), if_neg (by omega)]

/-- Conversely, the table has the bytes of characters only. -/
theorem WellFormed.bytesOf_codePoint (h : WellFormed first bytes) :
    (codePoint first bytes).isValidChar ∧ bytesOf (codePoint first bytes) = first :: bytes := by
  obtain ⟨ranges, hranges, hbytes⟩ := h
  have hfirst := first.toNat_lt
  unfold trailing at hranges
  split_ifs at hranges with h1 h2 h3 h4 h5 h6 h7 h8 h9
  · cases hranges
    cases hbytes
    rw [codePoint, List.foldl_nil, leading, if_pos h1]
    exact ⟨.inl (by omega), by rw [bytesOf, if_pos h1, ofNat_eq first rfl]⟩
  · cases hranges
    match bytes, hbytes with
    | [b], .cons hb .nil =>
        refine bytesOf_two ?_ (by omega) h3 hb
        simp only [codePoint, List.foldl_cons, List.foldl_nil, extend, leading, if_neg h1,
          if_pos h3]
  -- what the first byte is decides about the range of the second one
  · cases hranges
    match bytes, hbytes with
    | [b, b'], .cons hb (.cons hb' .nil) =>
        have hvalue := codePoint_three b b' (show 0xE0 ≤ first.toNat by omega) (by omega)
        have htail := hb.tail (by omega) (by omega)
        simp only [InRange] at hb
        exact bytesOf_three hvalue (by omega) (by omega) htail hb' (by omega) (by omega)
  · cases hranges
    match bytes, hbytes with
    | [b, b'], .cons hb (.cons hb' .nil) =>
        have hvalue := codePoint_three b b' (show 0xE0 ≤ first.toNat by omega) (by omega)
        have htail := hb.tail (by omega) (by omega)
        simp only [InRange] at hb
        exact bytesOf_three hvalue (by omega) (by omega) htail hb' (by omega) (by omega)
  · cases hranges
    match bytes, hbytes with
    | [b, b'], .cons hb (.cons hb' .nil) =>
        have hvalue := codePoint_three b b' (show 0xE0 ≤ first.toNat by omega) h6
        have htail := hb
        simp only [InRange, Utf8.tail] at hb
        exact bytesOf_three hvalue (by omega) h6 htail hb' (by omega) (by omega)
  · cases hranges
    match bytes, hbytes with
    | [b, b', b''], .cons hb (.cons hb' (.cons hb'' .nil)) =>
        have hvalue := codePoint_four b b' b'' (show 0xF0 ≤ first.toNat by omega)
        have htail := hb.tail (by omega) (by omega)
        simp only [InRange] at hb
        exact bytesOf_four hvalue (by omega) htail hb' hb'' (by omega) (by omega)
  · cases hranges
    match bytes, hbytes with
    | [b, b', b''], .cons hb (.cons hb' (.cons hb'' .nil)) =>
        have hvalue := codePoint_four b b' b'' (show 0xF0 ≤ first.toNat by omega)
        have htail := hb
        simp only [InRange, Utf8.tail] at hb
        exact bytesOf_four hvalue (by omega) htail hb' hb'' (by omega) (by omega)
  · cases hranges
    match bytes, hbytes with
    | [b, b', b''], .cons hb (.cons hb' (.cons hb'' .nil)) =>
        have hvalue := codePoint_four b b' b'' (show 0xF0 ≤ first.toNat by omega)
        have htail := hb.tail (by omega) (by omega)
        simp only [InRange] at hb
        exact bytesOf_four hvalue (by omega) htail hb' hb'' (by omega) (by omega)

/-- The well-formed sequences are exactly the bytes of the characters. -/
theorem wellFormed_iff :
    WellFormed first bytes ↔ ∃ c, String.utf8EncodeChar c = first :: bytes := by
  constructor
  · intro h
    obtain ⟨hvalid, hbytes⟩ := h.bytesOf_codePoint
    refine ⟨Char.ofNat (codePoint first bytes), ?_⟩
    rw [utf8EncodeChar_eq, toNat_ofNat hvalid, hbytes]
  · intro h
    obtain ⟨c, hc⟩ := h
    exact wellFormed_of_bytesOf (isValidChar_toNat c) hc

theorem codePoint_utf8EncodeChar {c : Char} (h : String.utf8EncodeChar c = first :: bytes) :
    codePoint first bytes = c.toNat :=
  codePoint_of_bytesOf (isValidChar_toNat c) h

/-- An ASCII character is its only byte, and the others have no ASCII bytes at their start. -/
theorem lt_first_iff {c : Char} (h : String.utf8EncodeChar c = first :: bytes) :
    0x7F < first.toNat ↔ 0x7F < c.toNat := by
  by_cases hc : c.toNat ≤ 0x7F
  · rw [utf8EncodeChar_ascii hc] at h
    cases h
    rw [toNat_byte (by omega)]
  · refine iff_of_true ?_ (not_le.mp hc)
    by_contra hfirst
    obtain ⟨ranges, hranges, hin⟩ := (wellFormed_iff.mpr ⟨c, h⟩).exists_ranges
    have hvalue := codePoint_utf8EncodeChar h
    rw [trailing, if_pos (not_lt.mp hfirst)] at hranges
    cases hranges
    cases hin
    rw [codePoint, List.foldl_nil, leading, if_pos (not_lt.mp hfirst)] at hvalue
    omega

theorem toNat_first {c : Char} (h : String.utf8EncodeChar c = first :: bytes)
    (hfirst : first.toNat ≤ 0x7F) : first.toNat = c.toNat := by
  have hc : c.toNat ≤ 0x7F := not_lt.mp (mt (lt_first_iff h).mpr (not_lt.mpr hfirst))
  rw [utf8EncodeChar_ascii hc] at h
  cases h
  exact toNat_byte (by omega)

/-- No character's bytes are the beginning of another's. -/
theorem utf8EncodeChar_append_inj {c c' : Char}
    (h : String.utf8EncodeChar c ++ bytes = String.utf8EncodeChar c' ++ bytes') :
    c = c' ∧ bytes = bytes' := by
  cases hc : String.utf8EncodeChar c with
  | nil => exact absurd hc String.utf8EncodeChar_ne_nil
  | cons first seq =>
      cases hc' : String.utf8EncodeChar c' with
      | nil => exact absurd hc' String.utf8EncodeChar_ne_nil
      | cons first' seq' =>
          rw [hc, hc', List.cons_append, List.cons_append] at h
          obtain ⟨rfl, hseq⟩ := List.cons.inj h
          obtain ⟨ranges, hranges, hin⟩ := (wellFormed_iff.mpr ⟨c, hc⟩).exists_ranges
          obtain ⟨ranges', hranges', hin'⟩ := (wellFormed_iff.mpr ⟨c', hc'⟩).exists_ranges
          cases hranges.symm.trans hranges'
          have hlength : seq.length = seq'.length := hin.length_eq.symm.trans hin'.length_eq
          obtain ⟨rfl, hbytes⟩ := List.append_inj hseq hlength
          refine ⟨?_, hbytes⟩
          rw [← Char.toNat_inj, ← codePoint_utf8EncodeChar hc, ← codePoint_utf8EncodeChar hc']

end Bytes

/-- Bytes at which no text goes on. -/
def Undecodable (bytes : List UInt8) : Prop := ∀ c rest, bytes ≠ String.utf8EncodeChar c ++ rest

/-- What bytes begin with can be told from a text that they begin with, unless it ends before. -/
theorem exists_of_encode_append_eq {text pre : List Char} {stop rest : List UInt8}
    (hstop : ∀ c ∈ pre, ∀ bytes, stop ≠ String.utf8EncodeChar c ++ bytes)
    (h : encode text ++ stop = encode pre ++ rest) :
    ∃ post, text = pre ++ post ∧ rest = encode post ++ stop := by
  induction pre generalizing text with
  | nil => exact ⟨text, rfl, h.symm⟩
  | cons c pre ih =>
      obtain ⟨hc, hpre⟩ := List.forall_mem_cons.mp hstop
      cases text with
      | nil =>
          rw [encode_nil, List.nil_append, encode_cons, List.append_assoc] at h
          exact absurd h (hc _)
      | cons c' text =>
          rw [encode_cons, encode_cons, List.append_assoc, List.append_assoc] at h
          obtain ⟨rfl, hrest⟩ := utf8EncodeChar_append_inj h
          obtain ⟨post, rfl, hpost⟩ := ih hpre hrest
          exact ⟨post, rfl, hpost⟩

/-- Bytes are those of a text and then others at which no text goes on. -/
theorem exists_encode_append (bytes : List UInt8) :
    ∃ text stop, bytes = encode text ++ stop ∧ Undecodable stop := by
  by_cases h : Undecodable bytes
  · exact ⟨[], bytes, rfl, h⟩
  · simp only [Undecodable, not_forall, not_not] at h
    obtain ⟨c, rest, hrest⟩ := h
    have hlength : rest.length < bytes.length := by
      have hpos := List.length_pos_iff.mpr (String.utf8EncodeChar_ne_nil (c := c))
      rw [hrest, List.length_append]
      omega
    obtain ⟨text, stop, rfl, hstop⟩ := exists_encode_append rest
    exact ⟨c :: text, stop, by rw [hrest, encode_cons, List.append_assoc], hstop⟩
termination_by bytes.length

theorem lt_first_of_undecodable {first : UInt8} {bytes : List UInt8}
    (h : Undecodable (first :: bytes)) : 0x7F < first.toNat := by
  by_contra hle
  have hle : first.toNat ≤ 0x7F := not_lt.mp hle
  have hvalid : first.toNat.isValidChar := .inl (by omega)
  apply h (Char.ofNat first.toNat) bytes
  rw [utf8EncodeChar_ascii (by rwa [toNat_ofNat hvalid]), toNat_ofNat hvalid, UInt8.ofNat_toNat]
  rfl

/-! ## Reading byte by byte -/

/-- The ranges of the bytes that are missing, and the code point so far. -/
structure Reader where
  pending : List (ℕ × ℕ)
  value : ℕ

/-- Between two characters. -/
def Reader.start : Reader := ⟨[], 0⟩

/-- One more byte, if a text can have it there. -/
def next (r : Reader) (byte : UInt8) : Option Reader :=
  match r.pending with
  | [] => (trailing byte.toNat).map fun ranges => ⟨ranges, leading byte.toNat⟩
  | range :: ranges => if InRange range byte then some ⟨ranges, extend r.value byte⟩ else none

def read (r : Reader) (bytes : List UInt8) : Option Reader := bytes.foldlM next r

@[simp] theorem read_nil (r : Reader) : read r [] = some r := rfl

@[simp] theorem read_cons (r : Reader) (byte : UInt8) (bytes : List UInt8) :
    read r (byte :: bytes) = (next r byte).bind fun r => read r bytes :=
  List.foldlM_cons

theorem read_append (r : Reader) (bytes bytes' : List UInt8) :
    read r (bytes ++ bytes') = (read r bytes).bind fun r => read r bytes' :=
  List.foldlM_append

theorem next_of_pending_nil {r : Reader} (h : r.pending = []) (byte : UInt8) :
    next r byte = (trailing byte.toNat).map fun ranges => ⟨ranges, leading byte.toNat⟩ := by
  rw [next, h]

theorem next_cons (range : ℕ × ℕ) (ranges : List (ℕ × ℕ)) (value : ℕ) (byte : UInt8) :
    next ⟨range :: ranges, value⟩ byte =
      if InRange range byte then some ⟨ranges, extend value byte⟩ else none := rfl

/-- The bytes that are missing bring the reader between two characters. -/
theorem read_pending {ranges : List (ℕ × ℕ)} {bytes : List UInt8}
    (h : List.Forall₂ InRange ranges bytes) (value : ℕ) :
    read ⟨ranges, value⟩ bytes = some ⟨[], bytes.foldl extend value⟩ := by
  induction h generalizing value with
  | nil => rfl
  | cons hb _ ih =>
      rw [read_cons, next_cons, if_pos hb]
      exact ih _

/-- A first byte that cannot be read. -/
theorem exists_of_read_none {r : Reader} {bytes : List UInt8} (h : read r bytes = none) :
    ∃ pre byte post, bytes = pre ++ byte :: post ∧ (read r pre).isSome = true ∧
      read r (pre ++ [byte]) = none := by
  induction bytes generalizing r with
  | nil => cases h
  | cons byte bytes ih =>
      rw [read_cons] at h
      cases hnext : next r byte with
      | none => exact ⟨[], byte, bytes, rfl, rfl, by simp [hnext]⟩
      | some r' =>
          rw [hnext, Option.bind_some] at h
          obtain ⟨pre, last, post, rfl, hpre, hlast⟩ := ih h
          refine ⟨byte :: pre, last, post, rfl, ?_, ?_⟩
          · simp [hnext, hpre]
          · simp only [List.cons_append, read_cons, hnext, Option.bind_some, hlast]

/-- A text that is read from between two characters ends there. -/
theorem read_encode {r : Reader} (h : r.pending = []) (text : List Char) :
    ∃ r', read r (encode text) = some r' ∧ r'.pending = [] := by
  induction text generalizing r with
  | nil => exact ⟨r, rfl, h⟩
  | cons c text ih =>
      cases hbytes : String.utf8EncodeChar c with
      | nil => exact absurd hbytes String.utf8EncodeChar_ne_nil
      | cons first bytes =>
          obtain ⟨ranges, hranges, hin⟩ := (wellFormed_iff.mpr ⟨c, hbytes⟩).exists_ranges
          have hread : read r (first :: bytes) =
              some ⟨[], bytes.foldl extend (leading first.toNat)⟩ := by
            rw [read_cons, next_of_pending_nil h, hranges]
            exact read_pending hin _
          rw [encode_cons, hbytes, read_append, hread]
          exact ih rfl

/-- Conversely, what is read up to a point between two characters ends with the bytes that were
missing, and the others are those of a text. -/
theorem exists_text_of_read {r r' : Reader} {bytes : List UInt8} (h : read r bytes = some r')
    (hend : r'.pending = []) :
    ∃ missing text, bytes = missing ++ encode text ∧ List.Forall₂ InRange r.pending missing := by
  induction bytes generalizing r with
  | nil =>
      cases h
      exact ⟨[], [], rfl, by rw [hend]; exact .nil⟩
  | cons byte bytes ih =>
      rw [read_cons] at h
      obtain ⟨r₁, hnext, hread⟩ := Option.bind_eq_some_iff.mp h
      obtain ⟨missing, text, rfl, hmissing⟩ := ih hread
      unfold next at hnext
      split at hnext
      · next hpending =>
          obtain ⟨ranges, hranges, rfl⟩ := Option.map_eq_some_iff.mp hnext
          obtain ⟨c, hc⟩ := wellFormed_iff.mp ⟨ranges, hranges, hmissing⟩
          refine ⟨[], c :: text, ?_, by rw [hpending]; exact .nil⟩
          rw [encode_cons, hc]
          rfl
      · next range ranges hpending =>
          split at hnext
          · next hin =>
              cases hnext
              exact ⟨byte :: missing, text, rfl, by rw [hpending]; exact .cons hin hmissing⟩
          · cases hnext

/-- The bytes of texts are those after which the reader is between two characters. -/
theorem exists_encode_iff {bytes : List UInt8} :
    (∃ text, encode text = bytes) ↔ ∃ r, read .start bytes = some r ∧ r.pending = [] := by
  constructor
  · intro h
    obtain ⟨text, rfl⟩ := h
    exact read_encode rfl text
  · intro h
    obtain ⟨r, hread, hend⟩ := h
    obtain ⟨missing, text, rfl, hmissing⟩ := exists_text_of_read hread hend
    cases hmissing
    exact ⟨text, rfl⟩

/-! ## The beginnings of texts -/

/-- Some text begins with these bytes. -/
def Viable (bytes : List UInt8) : Prop := ∃ text, bytes <+: encode text

theorem isSome_read_of_viable {bytes : List UInt8} (h : Viable bytes) :
    (read .start bytes).isSome = true := by
  obtain ⟨text, rest, hrest⟩ := h
  obtain ⟨r, hread, -⟩ := read_encode (r := .start) rfl text
  rw [← hrest, read_append] at hread
  obtain ⟨r', hr', -⟩ := Option.bind_eq_some_iff.mp hread
  rw [hr']
  rfl

/-- A byte in each of the ranges. -/
def Inhabited (ranges : List (ℕ × ℕ)) : Prop := ∀ range ∈ ranges, range.1 ≤ range.2 ∧ range.2 ≤ 0xFF

theorem inhabited_of_trailing {first : ℕ} {ranges : List (ℕ × ℕ)}
    (h : trailing first = some ranges) : Inhabited ranges := by
  unfold trailing at h
  split_ifs at h
  all_goals
    cases h
    simp [Inhabited, tail]

theorem inhabited_of_next {r r' : Reader} {byte : UInt8} (h : next r byte = some r')
    (hr : Inhabited r.pending) : Inhabited r'.pending := by
  unfold next at h
  split at h
  · obtain ⟨ranges, hranges, rfl⟩ := Option.map_eq_some_iff.mp h
    exact inhabited_of_trailing hranges
  · next range ranges hpending =>
      split at h
      · cases h
        rw [hpending] at hr
        exact (List.forall_mem_cons.mp hr).2
      · cases h

theorem inhabited_of_read {r r' : Reader} {bytes : List UInt8} (h : read r bytes = some r')
    (hr : Inhabited r.pending) : Inhabited r'.pending := by
  induction bytes generalizing r with
  | nil =>
      cases h
      exact hr
  | cons byte bytes ih =>
      rw [read_cons] at h
      obtain ⟨r₁, hnext, hread⟩ := Option.bind_eq_some_iff.mp h
      exact ih hread (inhabited_of_next hnext hr)

theorem exists_forall₂_inRange {ranges : List (ℕ × ℕ)} (h : Inhabited ranges) :
    ∃ bytes, List.Forall₂ InRange ranges bytes := by
  induction ranges with
  | nil => exact ⟨[], .nil⟩
  | cons range ranges ih =>
      obtain ⟨hrange, hranges⟩ := List.forall_mem_cons.mp h
      obtain ⟨bytes, hbytes⟩ := ih hranges
      refine ⟨UInt8.ofNat range.1 :: bytes, .cons ?_ hbytes⟩
      rw [InRange, toNat_byte (by omega)]
      omega

/-- The reader stops exactly at the first byte that rules every text out. -/
theorem isSome_read_iff {bytes : List UInt8} :
    (read .start bytes).isSome = true ↔ Viable bytes := by
  refine ⟨fun h => ?_, isSome_read_of_viable⟩
  obtain ⟨r, hr⟩ := Option.isSome_iff_exists.mp h
  obtain ⟨missing, hmissing⟩ :=
    exists_forall₂_inRange (inhabited_of_read hr (by simp [Inhabited, Reader.start]))
  have hread : read .start (bytes ++ missing) = some ⟨[], missing.foldl extend r.value⟩ := by
    rw [read_append, hr]
    exact read_pending hmissing _
  obtain ⟨text, htext⟩ := exists_encode_iff.mpr ⟨_, hread, rfl⟩
  exact ⟨text, missing, htext.symm⟩

/-! ## Order -/

/-- Bytes are ordered as numbers. -/
instance linearOrderUInt8 : LinearOrder UInt8 where
  le_refl := UInt8.le_refl
  le_trans _ _ _ := UInt8.le_trans
  lt_iff_le_not_ge _ _ := Std.lt_iff_le_and_not_ge
  le_antisymm _ _ := UInt8.le_antisymm
  le_total := UInt8.le_total
  toDecidableLE := inferInstance
  toDecidableLT := inferInstance

/-- A number is greater if its first digit in base 64 that differs is. -/
private theorem digits_lt {a b c d a' b' c' d' : ℕ} (hb : b < 64 ∧ b' < 64)
    (hc : c < 64 ∧ c' < 64) (hd : d < 64 ∧ d' < 64)
    (h : ((a * 64 + b) * 64 + c) * 64 + d < ((a' * 64 + b') * 64 + c') * 64 + d') :
    a < a' ∨ a = a' ∧ (b < b' ∨ b = b' ∧ (c < c' ∨ c = c' ∧ d < d')) := by
  omega

private theorem digits_eq (n : ℕ) :
    ((n / 0x40000 * 64 + n / 0x1000 % 64) * 64 + n / 0x40 % 64) * 64 + n % 64 = n := by
  omega

theorem bytesOf_append_lt {m n : ℕ} (h : m < n) (hn : n.isValidChar) (bytes bytes' : List UInt8) :
    bytesOf m ++ bytes < bytesOf n ++ bytes' := by
  have hbound : n < 0x110000 := by
    unfold Nat.isValidChar at hn
    omega
  have hlt (k l : ℕ) (hk : k < 256) (hl : l < 256) :
      UInt8.ofNat k < UInt8.ofNat l ↔ k < l := by
    rw [UInt8.lt_iff_toNat_lt, toNat_byte hk, toNat_byte hl]
  have heq (k l : ℕ) (hk : k < 256) (hl : l < 256) :
      UInt8.ofNat k = UInt8.ofNat l ↔ k = l := by
    rw [← UInt8.toNat_inj, toNat_byte hk, toNat_byte hl]
  have hdigits := digits_lt
    ⟨Nat.mod_lt (m / 0x1000) (by decide), Nat.mod_lt (n / 0x1000) (by decide)⟩
    ⟨Nat.mod_lt (m / 0x40) (by decide), Nat.mod_lt (n / 0x40) (by decide)⟩
    ⟨Nat.mod_lt m (by decide), Nat.mod_lt n (by decide)⟩
    (((digits_eq m).trans_lt h).trans_eq (digits_eq n).symm)
  have htop (k : ℕ) (hk : k < 0x110000) : k / 0x40000 % 8 = k / 0x40000 := by omega
  have hm := htop m (h.trans hbound)
  have hn := htop n hbound
  unfold bytesOf
  split_ifs <;> simp (disch := omega) only [List.cons_append, List.nil_append,
    List.cons_lt_cons_iff, hlt, heq] <;> omega

/-- Texts and their bytes are in the same order. -/
theorem encode_lt_encode {a b : List Char} (h : a < b) : encode a < encode b := by
  induction a generalizing b with
  | nil =>
      cases b with
      | nil => exact absurd h (lt_irrefl _)
      | cons d b =>
          cases hd : String.utf8EncodeChar d with
          | nil => exact absurd hd String.utf8EncodeChar_ne_nil
          | cons first bytes =>
              rw [encode_cons, hd]
              exact List.nil_lt_cons _ _
  | cons c a ih =>
      cases b with
      | nil => exact absurd h (List.not_lt_nil _)
      | cons d b =>
          rw [encode_cons, encode_cons]
          rcases List.cons_lt_cons_iff.mp h with hlt | ⟨rfl, hlt⟩
          · exact bytesOf_append_lt hlt (isValidChar_toNat d) _ _
          · exact List.append_left_lt (ih hlt)

end Utf8
