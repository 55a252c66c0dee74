import FastDdsSpy.Verification.Json.Grammar
import FastDdsSpy.Verification.Json.LexerBytes

/-! # The parser on two levels

On bytes, `json::parse` follows its model on characters. It accepts exactly the documents in
UTF-8, up to a null byte. -/

namespace FastDdsSpy

open Json TextUnit Utf8

variable {φ : Type*}

/-- The value with its strings as bytes. -/
def Json.toBytes {ν : Type*} : Json ν → Json ν Bytes := Json.map id ByteJson.stringBytes

namespace ByteJson

variable {stop : Bytes} (ft : FloatText φ)

/-! ## Byte order mark -/

/-- The bytes of a byte order mark are those of no other character. -/
theorem skipBom_of_ne {bytes : Bytes}
    (h : ∀ rest, bytes ≠ String.utf8EncodeChar '\uFEFF' ++ rest) :
    skipBom bytes = some bytes ∨ skipBom bytes = none ∧ ∃ rest, bytes = 0xEF :: rest := by
  unfold skipBom
  split
  · exact .inl rfl
  · next first bytes =>
      split
      · next hfirst =>
          cases hfirst
          refine .inr ⟨?_, bytes, rfl⟩
          split
          · next second third rest =>
              rw [if_neg]
              rintro ⟨rfl, rfl⟩
              exact h rest rfl
          · rfl
      · exact .inl rfl

theorem scan_of_lt {c : Char} (h : 0x7F < c.toNat) (text : Text) :
    scan (jsonNumbers ft).scanner (c :: text) = (.parseError, []) := by
  rw [scan_of_not_whitespace (isWhitespace_of_lt h), scanToken_of_lt _ h]

/-- The mark is skipped on both levels. Bytes that only begin like it begin no document. -/
theorem skipBom_encode (h : Stops stop) (text : Text) :
    skipBom (encode text ++ stop) = some (encode (FastDdsSpy.skipBom text) ++ stop) ∨
      skipBom (encode text ++ stop) = none ∧ Json.parse (jsonNumbers ft) text = none := by
  cases text with
  | nil =>
      rcases skipBom_of_ne (h.ne_append (by decide)) with hbom | ⟨hbom, -⟩
      · exact .inl hbom
      · exact .inr ⟨hbom, parseFrom_of_stops (.inl rfl)⟩
  | cons c text =>
      by_cases hc : c = '\uFEFF'
      · cases hc
        exact .inl rfl
      · have hskip : FastDdsSpy.skipBom (c :: text) = c :: text := by
          rw [FastDdsSpy.skipBom]
          exact fun _ heq => hc (List.cons.inj heq).1
        have hne (rest : Bytes) :
            encode (c :: text) ++ stop ≠ String.utf8EncodeChar '\uFEFF' ++ rest := by
          rw [encode_cons, List.append_assoc]
          exact fun heq => hc (utf8EncodeChar_append_inj heq).1
        rw [hskip]
        rcases skipBom_of_ne hne with hbom | ⟨hbom, rest, hrest⟩
        · exact .inl hbom
        · have hlt : 0x7F < c.toNat := by
            by_contra hle
            have hle := not_lt.mp hle
            rw [encode_cons, utf8EncodeChar_ascii hle] at hrest
            have hfirst := congrArg UInt8.toNat (List.cons.inj hrest).1
            rw [UInt8.toNat_ofNat', Nat.mod_eq_of_lt (by omega)] at hfirst
            exact absurd (hfirst ▸ hle) (by decide)
          refine .inr ⟨hbom, ?_⟩
          rw [Json.parse, hskip]
          exact parseFrom_of_stops (.inr (congrArg Prod.fst (scan_of_lt ft hlt text)))

/-! ## Documents -/

theorem Ends.eq_endOfInput {ν : Type*} {last : Token ν} (h : Ends stop last .endOfInput) :
    last = .endOfInput := by
  cases h
  rfl

/-- On the bytes of a text, up to the end or to a null byte, `parse` does what its model on
characters does. -/
theorem parse_encode (h : AtEnd stop) (text : Text) :
    parse ft (encode text ++ stop) = (Json.parse (jsonNumbers ft) text).map Json.toBytes := by
  have hsim := simulates_bytes ft (.inl h)
  rcases skipBom_encode ft (.inl h) text with hbom | ⟨hbom, hnone⟩
  · rw [parse, hbom, Option.bind_some, Json.parse]
    cases hparse : parseFrom (jsonNumbers ft).scanner (FastDdsSpy.skipBom text) with
    | none =>
        exact Representation.parseFrom_follows_none hsim exact_bytes
          (fun _ hends => Ends.eq_endOfInput hends) hparse
    | some j =>
        refine Representation.parseFrom_follows hsim (fun last hends => ?_) hparse
        cases hends with
        | ended => rfl
        | cut hcut => exact absurd h hcut
  · rw [parse, hbom, hnone]
    rfl

theorem valueToken_ne_endOfInput {ν α : Type*} (f : α → Primitive ν) (result : Option (α × Text)) :
    (valueToken f result).1 ≠ .endOfInput := by
  cases result <;> simp [valueToken]

theorem eq_null_of_scanToken {c : Char} {text : Text}
    (h : (scanToken (jsonNumbers ft).scanner (c :: text)).1 = .endOfInput) : c = '\x00' := by
  rw [scanToken, charOf_char] at h
  split at h
  case h_11 => rfl
  case h_7 | h_8 | h_9 =>
      unfold scanLiteral at h
      split at h <;> cases h
  case h_10 => exact absurd h (valueToken_ne_endOfInput _ _)
  case h_12 =>
      split at h
      · exact absurd h (valueToken_ne_endOfInput _ _)
      · cases h
  all_goals cases h

/-- Where bytes go on after a text without a null character, the lexer does not come to an end. -/
theorem scan_cut (h : Undecodable stop) (hne : stop ≠ []) {text : Text} (hnull : '\x00' ∉ text) :
    (scan (scanner ft) (encode text ++ stop)).1 ≠ .endOfInput := by
  intro hend
  rw [scan, skipWhitespace_encode (.inr h)] at hend
  cases hskip : skipWhitespace text with
  | nil =>
      cases stop with
      | nil => exact hne rfl
      | cons first bytes =>
          have hlt := lt_first_of_undecodable h
          rw [hskip, encode_nil, List.nil_append,
            scanToken_of_lt _ (by rwa [toNat_charOf])] at hend
          cases hend
  | cons c rest =>
      have hfollows := scanToken_encode ft (.inr h) (c :: rest)
      rw [hskip] at hend
      have htoken : (scanToken (jsonNumbers ft).scanner (c :: rest)).1 = .endOfInput := by
        generalize scanToken (jsonNumbers ft).scanner (c :: rest) = p at hfollows ⊢
        generalize scanToken (scanner ft) (encode (c :: rest) ++ stop) = q at hfollows hend
        cases hfollows with
        | token last text => cases last <;> first | rfl | cases hend
        | ended hends =>
            obtain rfl := hend
            exact Ends.eq_endOfInput hends
      have hmem : c ∈ skipWhitespace text := by
        rw [hskip]
        exact List.mem_cons_self
      rw [eq_null_of_scanToken ft htoken] at hmem
      exact hnull ((List.dropWhile_sublist _).mem hmem)

section Suffix

variable {ft : FloatText φ}

mutual

/-- What stands after a value is the end of the text. -/
theorem ValueText.suffix {text rest : Text} {v : Json (JsonNumber φ)}
    (h : Json.ValueText ft text v rest) : rest <:+ text := by
  match h with
  | .null => exact ⟨['n', 'u', 'l', 'l'], rfl⟩
  | .true => exact ⟨['t', 'r', 'u', 'e'], rfl⟩
  | .false => exact ⟨['f', 'a', 'l', 's', 'e'], rfl⟩
  | .number _ => exact List.suffix_append _ _
  | @Json.ValueText.string _ _ body _ _ _ => exact ⟨'"' :: (body ++ ['"']), by simp⟩
  | @Json.ValueText.emptyArray _ _ ws _ _ => exact ⟨'[' :: (ws ++ [']']), by simp⟩
  | .array h => exact (ElementsText.suffix h).trans (List.suffix_cons _ _)
  | @Json.ValueText.emptyObject _ _ ws _ _ => exact ⟨'{' :: (ws ++ ['}']), by simp⟩
  | .object h => exact (MembersText.suffix h).trans (List.suffix_cons _ _)
termination_by structural h

theorem ElementsText.suffix {text rest : Text} {values : List (Json (JsonNumber φ))}
    (h : Json.ElementsText ft text values rest) : rest <:+ text := by
  match h with
  | @Json.ElementsText.last _ _ ws t _ ws' r _ hv _ =>
      have hrest : r <:+ ws' ++ ']' :: r := ⟨ws' ++ [']'], by simp⟩
      exact (hrest.trans (ValueText.suffix hv)).trans (List.suffix_append ws t)
  | @Json.ElementsText.more _ _ ws t _ ws' u _ _ _ hv _ h =>
      have hrest : u <:+ ws' ++ ',' :: u := ⟨ws' ++ [','], by simp⟩
      have hvalue := (hrest.trans (ValueText.suffix hv)).trans (List.suffix_append ws t)
      exact (ElementsText.suffix h).trans hvalue
termination_by structural h

theorem MembersText.suffix {text rest : Text} {ms : List (String × Json (JsonNumber φ))}
    (h : Json.MembersText ft text ms rest) : rest <:+ text := by
  match h with
  | @Json.MembersText.last _ _ _ _ _ ws r h _ =>
      have hrest : r <:+ ws ++ '}' :: r := ⟨ws ++ ['}'], by simp⟩
      exact hrest.trans (MemberText.suffix h)
  | @Json.MembersText.more _ _ _ _ _ ws u _ _ h _ hmembers =>
      have hrest : u <:+ ws ++ ',' :: u := ⟨ws ++ [','], by simp⟩
      exact (MembersText.suffix hmembers).trans (hrest.trans (MemberText.suffix h))
termination_by structural h

theorem MemberText.suffix {text rest : Text} {key : String} {v : Json (JsonNumber φ)}
    (h : Json.MemberText ft text key v rest) : rest <:+ text := by
  match h with
  | @Json.MemberText.intro _ _ ws body _ ws₂ ws₃ t _ _ _ _ _ _ hv =>
      have ht : t <:+ ws ++ '"' :: (body ++ '"' :: (ws₂ ++ ':' :: (ws₃ ++ t))) :=
        ⟨ws ++ '"' :: (body ++ '"' :: (ws₂ ++ ':' :: ws₃)), by simp⟩
      exact (ValueText.suffix hv).trans ht
termination_by structural h

end

theorem suffix_of_exec {text rest : Text} {v : Json (JsonNumber φ)}
    (h : exec (jsonNumbers ft).scanner (getToken (jsonNumbers ft).scanner text []) =
      some (v, rest)) :
    rest <:+ text := by
  obtain ⟨ws, t, rfl, -, v', u, hv, rfl, rfl⟩ := Json.completes_of_getToken (Json.exec_sound h)
  exact (ValueText.suffix hv).trans (List.suffix_append ws t)

end Suffix

theorem suffix_skipBom (text : Text) : FastDdsSpy.skipBom text <:+ text := by
  unfold FastDdsSpy.skipBom
  split
  · exact List.suffix_cons _ _
  · exact List.suffix_rfl

/-- Bytes that go on after the text of a document, without a null byte, are no document. -/
theorem parse_cut (h : Undecodable stop) (hne : stop ≠ []) {text : Text} (hnull : '\x00' ∉ text) :
    parse ft (encode text ++ stop) = none := by
  rcases skipBom_encode ft (.inr h) text with hbom | ⟨hbom, -⟩
  · rw [parse, hbom, Option.bind_some, parseFrom]
    have hexec : (bytes (JsonNumber φ) stop).ResultFollows (bytes _ stop).json _
        (exec (scanner ft) (getToken (scanner ft) (encode (FastDdsSpy.skipBom text) ++ stop) [])) :=
      Representation.exec_getToken (simulates_bytes ft (.inr h)) (FastDdsSpy.skipBom text)
    generalize hread : exec (jsonNumbers ft).scanner
      (getToken (jsonNumbers ft).scanner (FastDdsSpy.skipBom text) []) = result at hexec
    generalize exec (scanner ft) _ = result' at hexec ⊢
    cases hexec with
    | none hnone => rw [hnone exact_bytes]
    | some v rest =>
        have hrest : '\x00' ∉ rest := fun hmem =>
          hnull (((suffix_of_exec hread).trans (suffix_skipBom text)).mem hmem)
        have hscan := scan_cut ft h hne hrest
        simp only
        split
        · next hend => exact absurd (congrArg Prod.fst hend) hscan
        · rfl
  · rw [parse, hbom]
    rfl

/-- Bytes are a text without null characters, up to the end, to a null byte, or to bytes at which
no text goes on. -/
theorem exists_text (bytes : Bytes) : ∃ text stop, bytes = encode text ++ stop ∧
    (AtEnd stop ∨ '\x00' ∉ text ∧ Undecodable stop ∧ stop ≠ []) := by
  obtain ⟨text, stop, rfl, hstop⟩ := exists_encode_append bytes
  by_cases hnull : '\x00' ∈ text
  · obtain ⟨pre, post, rfl, -⟩ := List.eq_append_cons_of_mem hnull
    refine ⟨pre, encode ('\x00' :: post) ++ stop, by simp, .inl ?_⟩
    rintro byte ⟨⟩
    rfl
  · by_cases hne : stop = []
    · exact ⟨text, stop, rfl, .inl (by simp [AtEnd, hne])⟩
    · exact ⟨text, stop, rfl, .inr ⟨hnull, hstop, hne⟩⟩

/-- The parser accepts exactly the documents of the grammar in UTF-8, whatever stands after a null
byte that follows them. -/
theorem parse_iff_utf8 (ft : FloatText φ) (bytes : Bytes) (v : Json (JsonNumber φ) Bytes) :
    parse ft bytes = some v ↔ ∃ text stop j, bytes = encode text ++ stop ∧ AtEnd stop ∧
      Json.DocumentText ft text j ∧ v = j.toBytes := by
  constructor
  · intro h
    obtain ⟨text, stop, rfl, hstop⟩ := exists_text bytes
    rcases hstop with hend | ⟨hnull, hcut, hne⟩
    · rw [parse_encode ft hend] at h
      obtain ⟨j, hj, rfl⟩ := Option.map_eq_some_iff.mp h
      exact ⟨text, stop, j, rfl, hend, Json.document_of_parse hj, rfl⟩
    · rw [parse_cut ft hcut hne hnull] at h
      cases h
  · intro h
    obtain ⟨text, stop, j, rfl, hend, hdocument, rfl⟩ := h
    rw [parse_encode ft hend, Json.parse_document hdocument]
    rfl

end ByteJson

end FastDdsSpy
