import FastDdsSpy.Model.ByteJson
import FastDdsSpy.Verification.Json.Simulation
import FastDdsSpy.Verification.Json.ScanBytes

/-! # The lexer on two levels

On the bytes of a text, and whatever stands after them, the lexer reads the tokens that its model
on characters reads from the text. -/

namespace FastDdsSpy

open Json TextUnit Utf8

variable {ν φ : Type*}

namespace ByteJson

/-! ## Characters and bytes -/

theorem toNat_charOf (byte : UInt8) : (charOf byte).toNat = byte.toNat :=
  toNat_ofNat (.inl (byte.toNat_lt.trans (by decide)))

theorem charOf_ofNat {c : Char} (h : c.toNat ≤ 0x7F) : charOf (UInt8.ofNat c.toNat) = c := by
  rw [← Char.toNat_inj, toNat_charOf, UInt8.toNat_ofNat', Nat.mod_eq_of_lt (by omega)]

theorem charOf_injective : Function.Injective (charOf : UInt8 → Char) := by
  intro a b h
  rw [← UInt8.toNat_inj, ← toNat_charOf, ← toNat_charOf, h]

theorem map_charOf_ascii {text : Text} (h : ∀ c ∈ text, c.toNat ≤ 0x7F) :
    (ascii text : Bytes).map charOf = text := by
  induction text with
  | nil => rfl
  | cons c text ih =>
      obtain ⟨hc, htext⟩ := List.forall_mem_cons.mp h
      exact congrArg₂ List.cons (charOf_ofNat hc) (ih htext)

/-- A character outside ASCII starts with a byte outside ASCII. -/
theorem exists_first {c : Char} (h : 0x7F < c.toNat) :
    ∃ first bytes, String.utf8EncodeChar c = first :: bytes ∧ 0x7F < (charOf first).toNat := by
  cases hc : String.utf8EncodeChar c with
  | nil => exact absurd hc String.utf8EncodeChar_ne_nil
  | cons first bytes => exact ⟨first, bytes, rfl, by rwa [toNat_charOf, lt_first_iff hc]⟩

theorem isWhitespace_of_lt {c : Char} (h : 0x7F < c.toNat) : isWhitespace c = false := by
  by_contra hw
  rcases isWhitespace_iff.mp (Bool.eq_true_of_not_eq_false hw) with rfl | rfl | rfl | rfl
  all_goals exact absurd h (by decide)

theorem isDigit_of_lt {c : Char} (h : 0x7F < c.toNat) : c.isDigit = false := by
  by_contra hd
  have hle := (Char.isDigit_iff_toNat.mp (Bool.eq_true_of_not_eq_false hd)).2
  exact absurd (h.trans_le hle) (by decide)

theorem startsNumber_of_lt {c : Char} (h : 0x7F < c.toNat) : startsNumber c = false := by
  have hminus : c ≠ '-' := by
    rintro rfl
    exact absurd h (by decide)
  simp [startsNumber, hminus, isDigit_of_lt h]

/-- Numbers are made of ASCII characters. -/
theorem next_of_lt {c : Char} (h : 0x7F < c.toNat) (state : NumberState) : state.next c = none := by
  have hne (d : Char) (hd : d.toNat ≤ 0x7F) : c ≠ d := by
    rintro rfl
    omega
  cases state <;> simp [NumberState.next, isDigit_of_lt h, hne '-' (by decide), hne '0' (by decide),
    hne '.' (by decide), hne 'e' (by decide), hne 'E' (by decide), hne '+' (by decide)]

/-! ## Where a text ends -/

/-- The lexer takes a null byte for the end. -/
def AtEnd (bytes : Bytes) : Prop := ∀ byte ∈ bytes.head?, byte = 0

/-- What can stand after a text that is read as far as it goes. -/
def Stops (stop : Bytes) : Prop := AtEnd stop ∨ Undecodable stop

theorem Stops.head {first : UInt8} {bytes : Bytes} (h : Stops (first :: bytes)) :
    charOf first = '\x00' ∨ 0x7F < (charOf first).toNat := by
  rcases h with h | h
  · rw [h first rfl]
    exact .inl rfl
  · rw [toNat_charOf]
    exact .inr (lt_first_of_undecodable h)

/-- A string or a literal does not go on there. -/
theorem Stops.ne_append {stop : Bytes} (h : Stops stop) {c : Char} (hc : c ≠ '\x00')
    (bytes : Bytes) : stop ≠ String.utf8EncodeChar c ++ bytes := by
  rcases h with h | h
  · rintro rfl
    cases hfirst : String.utf8EncodeChar c with
    | nil => exact absurd hfirst String.utf8EncodeChar_ne_nil
    | cons first rest =>
        have hzero : first = 0 := h first (by rw [hfirst]; rfl)
        have hvalue := toNat_first hfirst (by rw [hzero]; decide)
        rw [hzero] at hvalue
        exact hc (Char.toNat_inj.mp hvalue.symm)
  · exact h c bytes

variable {stop : Bytes}

/-! ## Whitespace -/

section Whitespace

variable {χ : Type} [TextUnit χ] {current : χ}

theorem skipWhitespace_cons_of_pos (h : isWhitespace (charOf current) = true) (input : List χ) :
    skipWhitespace (current :: input) = skipWhitespace input :=
  List.dropWhile_cons_of_pos h

theorem skipWhitespace_cons_of_neg (h : isWhitespace (charOf current) = false) (input : List χ) :
    skipWhitespace (current :: input) = current :: input :=
  List.dropWhile_cons_of_neg (by simp [h])

end Whitespace

theorem skipWhitespace_stop (h : Stops stop) : skipWhitespace stop = stop := by
  cases stop with
  | nil => rfl
  | cons first bytes =>
      rcases h.head with hfirst | hfirst
      · exact skipWhitespace_cons_of_neg (by rw [hfirst]; rfl) bytes
      · exact skipWhitespace_cons_of_neg (isWhitespace_of_lt hfirst) bytes

theorem skipWhitespace_encode (h : Stops stop) (text : Text) :
    skipWhitespace (encode text ++ stop) = encode (skipWhitespace text) ++ stop := by
  induction text with
  | nil => exact skipWhitespace_stop h
  | cons c text ih =>
      by_cases hc : c.toNat ≤ 0x7F
      · rw [encode_cons, utf8EncodeChar_ascii hc, List.append_assoc, List.singleton_append]
        cases hw : isWhitespace c with
        | true =>
            rw [skipWhitespace_cons_of_pos (by rwa [charOf_ofNat hc]),
              skipWhitespace_cons_of_pos hw]
            exact ih
        | false =>
            rw [skipWhitespace_cons_of_neg (by rwa [charOf_ofNat hc]),
              skipWhitespace_cons_of_neg hw, encode_cons, utf8EncodeChar_ascii hc]
            rfl
      · have hc := not_le.mp hc
        obtain ⟨first, bytes, hfirst, hlt⟩ := exists_first hc
        rw [skipWhitespace_cons_of_neg (isWhitespace_of_lt hc), encode_cons, hfirst,
          List.append_assoc, List.cons_append]
        exact skipWhitespace_cons_of_neg (isWhitespace_of_lt hlt) _

/-! ## Literals -/

theorem ascii_eq_encode {text : Text} (h : ∀ c ∈ text, c.toNat ≤ 0x7F) :
    (ascii text : Bytes) = encode text := by
  induction text with
  | nil => rfl
  | cons c text ih =>
      obtain ⟨hc, htext⟩ := List.forall_mem_cons.mp h
      rw [encode_cons, utf8EncodeChar_ascii hc, ← ih htext]
      rfl

/-- A literal without null characters stands in the bytes where it stands in the text. -/
theorem prefix_encode_iff (h : Stops stop) {literal : Text}
    (hliteral : ∀ c ∈ literal, c.toNat ≤ 0x7F ∧ c ≠ '\x00') (text : Text) :
    literal <+: (encode text ++ stop).map charOf ↔ literal <+: text := by
  have hascii := ascii_eq_encode fun c hc => (hliteral c hc).1
  have hmap := map_charOf_ascii fun c hc => (hliteral c hc).1
  rw [← hmap, List.prefix_map_iff_of_injective charOf_injective, hmap, hascii]
  constructor
  · rintro ⟨rest, hrest⟩
    obtain ⟨post, rfl, -⟩ :=
      exists_of_encode_append_eq (fun c hc => h.ne_append (hliteral c hc).2) hrest.symm
    exact List.prefix_append literal post
  · rintro ⟨rest, rfl⟩
    rw [encode_append, List.append_assoc]
    exact List.prefix_append _ _

theorem drop_encode {literal text : Text} (hascii : ∀ c ∈ literal, c.toNat ≤ 0x7F)
    (h : literal <+: text) :
    (encode text ++ stop).drop literal.length = encode (text.drop literal.length) ++ stop := by
  obtain ⟨rest, rfl⟩ := h
  have hlength : literal.length = (encode literal).length := by
    rw [← ascii_eq_encode hascii, ascii, List.length_map]
  rw [List.drop_left, encode_append, List.append_assoc, hlength, List.drop_left]

/-! ## Numbers -/

/-- A number ends at a byte that does not continue it. -/
theorem scanLabel_of_next {state : NumberState} {bytes : Bytes}
    (h : ∀ first ∈ bytes.head?, state.next (charOf first) = none) (numberType : NumberType) :
    scanLabel state numberType bytes =
      if state.isDone then some (numberType, [], bytes) else none := by
  cases bytes with
  | nil => rfl
  | cons first bytes => rw [scanLabel, h first rfl]

theorem next_stop (h : Stops stop) (state : NumberState) :
    ∀ first ∈ stop.head?, state.next (charOf first) = none := by
  cases stop with
  | nil => simp
  | cons first bytes =>
      intro byte hbyte
      cases hbyte
      rcases h.head with hfirst | hfirst
      · rw [hfirst]
        cases state <;> rfl
      · exact next_of_lt hfirst state

theorem next_encode {state : NumberState} {c : Char} (h : state.next c = none) (text : Text)
    (bytes : Bytes) :
    ∀ first ∈ (encode (c :: text) ++ bytes).head?, state.next (charOf first) = none := by
  intro byte hbyte
  by_cases hc : c.toNat ≤ 0x7F
  · rw [encode_cons, utf8EncodeChar_ascii hc] at hbyte
    cases hbyte
    rwa [charOf_ofNat hc]
  · obtain ⟨first, rest, hfirst, hlt⟩ := exists_first (not_le.mp hc)
    rw [encode_cons, hfirst] at hbyte
    cases hbyte
    exact next_of_lt hlt state

theorem scanLabel_encode (h : Stops stop) (state : NumberState) (numberType : NumberType)
    (text : Text) : scanLabel state numberType (encode text ++ stop) =
      (scanLabel state numberType text).map
        fun r => (r.1, ascii r.2.1, encode r.2.2 ++ stop) := by
  induction text generalizing state numberType with
  | nil =>
      rw [encode_nil, List.nil_append, scanLabel_of_next (next_stop h state),
        scanLabel]
      split <;> rfl
  | cons c text ih =>
      cases hnext : state.next c with
      | none =>
          rw [scanLabel_of_next (next_encode hnext text stop), scanLabel, charOf_char, hnext]
          split <;> rfl
      | some target =>
          have hc : c.toNat ≤ 0x7F := by
            by_contra hlt
            rw [next_of_lt (not_le.mp hlt)] at hnext
            cases hnext
          rw [encode_cons, utf8EncodeChar_ascii hc, List.append_assoc, List.singleton_append,
            scanLabel, scanLabel, charOf_ofNat hc, charOf_char, hnext]
          simp only [ih, Option.map_map]
          rfl

theorem ascii_of_scanLabel {state : NumberState} {numberType result : NumberType}
    {text token rest : Text}
    (h : scanLabel state numberType text = some (result, token, rest)) :
    ∀ c ∈ token, c.toNat ≤ 0x7F := by
  induction text generalizing state numberType token with
  | nil =>
      simp only [scanLabel, Option.ite_none_right_eq_some] at h
      cases h.2
      simp
  | cons current text ih =>
      simp only [scanLabel] at h
      split at h
      · next target hnext =>
          obtain ⟨r, hr, heq⟩ := Option.map_eq_some_iff.mp h
          cases heq
          refine List.forall_mem_cons.mpr ⟨?_, ih hr⟩
          by_contra hlt
          rw [charOf_char, next_of_lt (not_le.mp hlt)] at hnext
          cases hnext
      · simp only [Option.ite_none_right_eq_some] at h
        cases h.2
        simp

theorem scanNumber_encode (ft : FloatText φ) (h : Stops stop) (text : Text) :
    scanNumber ft (encode text ++ stop) =
      (scanNumber ft text).map fun r => (r.1, encode r.2 ++ stop) := by
  rw [scanNumber, scanNumber, scanLabel_encode h]
  cases hscan : scanLabel .init .unsigned text with
  | none => rfl
  | some r =>
      obtain ⟨numberType, token, rest⟩ := r
      simp only [Option.map_some, map_charOf_ascii (ascii_of_scanLabel hscan), map_charOf_char,
        Option.map_map]
      rfl

/-! ## Strings -/

theorem ne_null_of_hexText {digits : Text} {n : ℕ} (h : HexText digits n) :
    ∀ c ∈ digits, c ≠ '\x00' := by
  have hne {c : Char} {d : ℕ} (hc : hexValue c = some d) : c ≠ '\x00' := by
    rintro rfl
    cases hc
  cases h with
  | digits h₁ h₂ h₃ h₄ => simp [hne h₁, hne h₂, hne h₃, hne h₄]

theorem ne_null_of_escapeText {seq : Text} {c : Char} (h : EscapeText seq c) :
    ∀ c ∈ seq, c ≠ '\x00' := by
  cases h with
  | codePoint hdigits _ =>
      exact List.forall_mem_cons.mpr ⟨by decide, ne_null_of_hexText hdigits⟩
  | surrogates hhigh hlow _ _ =>
      simp only [List.forall_mem_cons, List.forall_mem_append]
      exact ⟨by decide, ne_null_of_hexText hhigh, by decide, by decide, ne_null_of_hexText hlow⟩
  | _ => simp

/-- Control characters stand in a string only as escapes. -/
theorem ne_null_of_stringText {body value : Text} (h : StringText body value) :
    ∀ c ∈ body, c ≠ '\x00' := by
  induction h with
  | nil => simp
  | plain hcontrol _ _ _ ih =>
      refine List.forall_mem_cons.mpr ⟨?_, ih⟩
      rintro rfl
      exact absurd hcontrol (by decide)
  | escape hc _ ih =>
      simp only [List.forall_mem_cons, List.forall_mem_append]
      exact ⟨by decide, ne_null_of_escapeText hc, ih⟩

theorem scanString_encode (h : Stops stop) (text : Text) :
    scanStringBytes (encode text ++ stop) =
      (scanCharacters text).map (Prod.map encode (encode · ++ stop)) := by
  cases hscan : scanCharacters text with
  | some result =>
      obtain ⟨value, rest⟩ := result
      obtain ⟨body, rfl, hbody⟩ := scanCharacters_sound hscan
      rw [encode_append, List.append_assoc]
      exact scanStringBytes_complete hbody (encode rest ++ stop)
  | none =>
      cases hbytes : scanStringBytes (encode text ++ stop) with
      | none => rfl
      | some result =>
          obtain ⟨buffer, rest⟩ := result
          obtain ⟨body, value, hbody, hinput, -⟩ := scanStringBytes_sound hbytes
          have hquote : encode text ++ stop = encode (body ++ ['"']) ++ rest := by
            rw [hinput, encode_append, List.append_assoc]
            rfl
          have hnull : ∀ c ∈ body ++ ['"'], c ≠ '\x00' := by
            simpa [or_imp, forall_and] using ne_null_of_stringText hbody
          obtain ⟨post, rfl, -⟩ :=
            exists_of_encode_append_eq (fun c hc => h.ne_append (hnull c hc)) hquote
          rw [List.append_assoc, List.singleton_append, scanCharacters_complete hbody] at hscan
          cases hscan

/-! ## Tokens -/

/-- The bytes of a string. They are in the same order as the strings. -/
def stringBytes (s : String) : Bytes := encode s.toList

theorem strictMono_stringBytes : StrictMono stringBytes := fun _ _ h => encode_lt_encode h

/-- The last tokens on both levels. At the end of the text it is an error if the bytes go on. -/
inductive Ends (stop : Bytes) : Token ν → Token ν Bytes → Prop
  | failed : Ends stop .parseError .parseError
  | ended (h : AtEnd stop) : Ends stop .endOfInput .endOfInput
  | cut (h : ¬ AtEnd stop) : Ends stop .endOfInput .parseError

/-- The bytes of a text, and `stop` after them. -/
def bytes (ν : Type*) (stop : Bytes) : Representation ν ν String Bytes Char UInt8 where
  number := id
  string := stringBytes
  input text := encode text ++ stop
  Ends := Ends stop

theorem exact_bytes : (bytes ν stop).Exact := by
  intro last last' h
  cases h
  · exact .inr rfl
  · exact .inl rfl
  · exact .inr rfl

theorem bytes_failed (stop : Bytes) (text : Text) (rest : Bytes) :
    (bytes ν stop).ScanFollows (.parseError, text) (.parseError, rest) :=
  have hends : (bytes ν stop).Ends .parseError .parseError := Ends.failed
  .ended hends text rest

section Unit

variable {σ χ : Type} [TextUnit χ] (sc : Scanner ν σ χ)

theorem scanToken_of_lt {first : χ} (h : 0x7F < (charOf first).toNat) (rest : List χ) :
    scanToken sc (first :: rest) = (.parseError, []) := by
  have hlabels : ∀ c ∈ switchLabels, c.toNat ≤ 0x7F := by simp [switchLabels]
  rw [scanToken_default sc (fun hmem => absurd (hlabels _ hmem) (not_le.mpr h)),
    startsNumber_of_lt h]
  rfl

end Unit

theorem scanToken_stop (ft : FloatText φ) (h : Stops stop) :
    (bytes (JsonNumber φ) stop).ScanFollows (scanToken (jsonNumbers ft).scanner [])
      (scanToken (scanner ft) stop) := by
  cases stop with
  | nil => exact .token .endOfInput []
  | cons first rest =>
      rcases h.head with hfirst | hfirst
      · have hzero : first = 0 := by
          rw [← UInt8.toNat_inj, ← toNat_charOf, hfirst]
          rfl
        cases hzero
        have hends : (bytes (JsonNumber φ) (0 :: rest)).Ends .endOfInput .endOfInput :=
          Ends.ended (by simp [AtEnd])
        exact .ended hends [] rest
      · rw [scanToken_of_lt (scanner ft) hfirst]
        have hends : (bytes (JsonNumber φ) (first :: rest)).Ends .endOfInput .parseError := by
          refine Ends.cut fun hend => ?_
          rw [hend first rfl] at hfirst
          exact absurd hfirst (by decide)
        exact .ended hends [] []

theorem scanLiteral_follows (h : Stops stop) {literal : Text}
    (hmem : literal ∈ literals) (value : Primitive ν) (text : Text) :
    (bytes ν stop).ScanFollows (scanLiteral literal value text)
      (scanLiteral literal (value.map id stringBytes) (encode text ++ stop)) := by
  have hliteral : ∀ c ∈ literal, c.toNat ≤ 0x7F ∧ c ≠ '\x00' := by
    simp only [literals, List.mem_cons, List.not_mem_nil, or_false] at hmem
    rcases hmem with rfl | rfl | rfl
    all_goals simp
  unfold scanLiteral
  simp only [map_charOf_char, prefix_encode_iff h hliteral]
  split
  · next hprefix =>
      rw [drop_encode (fun c hc => (hliteral c hc).1) hprefix]
      exact .token (.value value) _
  · exact bytes_failed stop [] []

theorem scanString_follows (h : Stops stop) (text : Text) :
    (bytes ν stop).ScanFollows (valueToken .string (scanString ('"' :: text)))
      (valueToken .string (scanStringBytes (encode text ++ stop))) := by
  rw [scanString_encode h, scanString]
  cases scanCharacters text with
  | none => exact bytes_failed stop [] []
  | some r =>
      have hstring : stringBytes (.ofList r.1) = encode r.1 := by
        rw [stringBytes, String.toList_ofList]
      have htoken : (bytes ν stop).ScanFollows (.value (.string (.ofList r.1)), r.2)
          (.value (.string (stringBytes (.ofList r.1))), encode r.2 ++ stop) := .token _ r.2
      rwa [hstring] at htoken

theorem scanNumber_follows (ft : FloatText φ) (h : Stops stop) (text : Text) :
    (bytes (JsonNumber φ) stop).ScanFollows (valueToken .number (scanNumber ft text))
      (valueToken .number (scanNumber ft (encode text ++ stop))) := by
  rw [scanNumber_encode ft h]
  cases scanNumber ft text with
  | none => exact bytes_failed stop [] []
  | some r => exact .token (.value (.number r.1)) r.2

theorem scanToken_encode (ft : FloatText φ) (h : Stops stop) (text : Text) :
    (bytes (JsonNumber φ) stop).ScanFollows (scanToken (jsonNumbers ft).scanner text)
      (scanToken (scanner ft) (encode text ++ stop)) := by
  cases text with
  | nil => exact scanToken_stop ft h
  | cons c text =>
      by_cases hascii : c.toNat ≤ 0x7F
      · have hbytes : encode (c :: text) ++ stop =
            UInt8.ofNat c.toNat :: (encode text ++ stop) := by
          rw [encode_cons, utf8EncodeChar_ascii hascii]
          rfl
        have hliteral (literal) (hmem : literal ∈ literals) (value) :=
          scanLiteral_follows (ν := JsonNumber φ) h hmem value (c :: text)
        have hnumber := scanNumber_follows ft h (c :: text)
        rw [hbytes] at hliteral hnumber ⊢
        exact (bytes (JsonNumber φ) stop).scanToken_follows (charOf_ofNat hascii) hliteral
          (scanString_follows h text) hnumber Ends.failed
      · have hlt := not_le.mp hascii
        obtain ⟨first, rest, hfirst, hfirst'⟩ := exists_first hlt
        rw [scanToken_of_lt _ hlt, encode_cons, hfirst, List.append_assoc, List.cons_append,
          scanToken_of_lt _ hfirst']
        exact bytes_failed stop [] []

/-- On the bytes of a text, `scan` follows its model on characters. -/
theorem simulates_bytes (ft : FloatText φ) (h : Stops stop) :
    (bytes (JsonNumber φ) stop).Simulates (jsonNumbers ft).scanner (scanner ft) where
  strictMono := strictMono_stringBytes
  stops h := by
    cases h
    · exact .inr rfl
    · exact .inl rfl
    · exact .inl rfl
  ne_endArray h := by cases h <;> simp
  scan text := by
    show (bytes (JsonNumber φ) stop).ScanFollows _ (scan (scanner ft) (encode text ++ stop))
    rw [scan, scan, skipWhitespace_encode h]
    exact scanToken_encode ft h _

end ByteJson

end FastDdsSpy
