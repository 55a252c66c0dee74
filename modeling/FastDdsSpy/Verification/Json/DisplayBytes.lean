import FastDdsSpy.Verification.Json.DumpBytes
import FastDdsSpy.Verification.Json.ParserBytes
import FastDdsSpy.Verification.Json.PrintSimulation

/-! # The display on two levels

What is displayed for the bytes of a sample is what its model on characters displays for the
text, in UTF-8. After a document has been parsed, no string of it can fail to be written. -/

namespace FastDdsSpy.ByteJson

open Json Utf8

variable {φ : Type*} (ft : FloatText φ)

/-- The serializer writes every string that is UTF-8. -/
theorem dumpEscaped_encode (text : Text) :
    dumpEscaped (encode text) = .ok (encode (text.flatMap escape)) :=
  dumpEscaped_of_dumps (.text text rfl)

theorem encodes_utf8 : Encodes (encode : Text → Bytes) where
  append := encode_append
  ascii text h := by rw [ascii_char, ascii_eq_encode h]

theorem dump_bytes (value : Primitive (JsonNumber φ)) :
    dump ft (value.map id stringBytes) =
      pure (encode (FastDdsSpy.dump (jsonNumbers ft) value)) := by
  cases value with
  | null => rfl
  | boolean value => cases value <;> rfl
  | number value => rfl
  | string value =>
      rw [Primitive.map, dump, stringBytes, dumpEscaped_encode, FastDdsSpy.dump, dumpString,
        encode_append, encode_append]
      rfl

/-- The printer writes the bytes of the text that its model on characters writes. -/
theorem print_toBytes (j : Json (JsonNumber φ)) (indent step : ℕ) :
    print (dump ft) j.toBytes indent step =
      .ok (encode (printJsonArraysInline (jsonNumbers ft) j indent step)) :=
  print_map encodes_utf8 (dump_bytes ft) j indent step

/-- What the display of some bytes is, in terms of the display of texts. It fails only where the
parser does. -/
def DisplayOf (bytes : Bytes) (indentStep : ℕ) : Except FormatError Bytes → Prop
  | .ok output => ∃ text stop pretty, bytes = encode text ++ stop ∧ AtEnd stop ∧
      FastDdsSpy.formatJsonArraysInline (jsonNumbers ft) text indentStep = some pretty ∧
      output = encode pretty
  | .error e => e = .parseError ∧ ∀ text stop, bytes = encode text ++ stop → AtEnd stop →
      FastDdsSpy.formatJsonArraysInline (jsonNumbers ft) text indentStep = none

theorem format_encode {stop : Bytes} (h : AtEnd stop) (text : Text) (indentStep : ℕ) :
    formatJsonArraysInline ft (encode text ++ stop) indentStep =
      match FastDdsSpy.formatJsonArraysInline (jsonNumbers ft) text indentStep with
      | some pretty => .ok (encode pretty)
      | none => .error .parseError := by
  rw [formatJsonArraysInline, parse_encode ft h, FastDdsSpy.formatJsonArraysInline]
  cases Json.parse (jsonNumbers ft) text with
  | none => rfl
  | some j =>
      simp only [Option.map_some, print_toBytes]
      rfl

/-- Where bytes go on after a text, there is nothing to display. -/
theorem format_cut {stop : Bytes} (h : Undecodable stop) (hne : stop ≠ []) {text : Text}
    (hnull : '\x00' ∉ text) (indentStep : ℕ) :
    formatJsonArraysInline ft (encode text ++ stop) indentStep = .error .parseError := by
  rw [formatJsonArraysInline, parse_cut ft h hne hnull]

theorem displayOf_format (bytes : Bytes) (indentStep : ℕ) :
    DisplayOf ft bytes indentStep (formatJsonArraysInline ft bytes indentStep) := by
  have hnone (text stop) (hbytes : bytes = encode text ++ stop) (hend : AtEnd stop)
      (herror : formatJsonArraysInline ft bytes indentStep = .error .parseError) :
      FastDdsSpy.formatJsonArraysInline (jsonNumbers ft) text indentStep = none := by
    rw [hbytes, format_encode ft hend] at herror
    cases hformat : FastDdsSpy.formatJsonArraysInline (jsonNumbers ft) text indentStep with
    | none => rfl
    | some pretty =>
        rw [hformat] at herror
        cases herror
  obtain ⟨text, stop, hbytes, hstop⟩ := exists_text bytes
  rcases hstop with hend | ⟨hnull, hcut, hne⟩
  · have hformat := format_encode ft hend text indentStep
    rw [← hbytes] at hformat
    rw [hformat]
    cases htext : FastDdsSpy.formatJsonArraysInline (jsonNumbers ft) text indentStep with
    | some pretty => exact ⟨text, stop, pretty, hbytes, hend, htext, rfl⟩
    | none =>
        rw [htext] at hformat
        exact ⟨rfl, fun text' stop' hbytes' hend' => hnone text' stop' hbytes' hend' hformat⟩
  · have hformat := format_cut ft hcut hne hnull indentStep
    rw [← hbytes] at hformat
    rw [hformat]
    exact ⟨rfl, fun text' stop' hbytes' hend' => hnone text' stop' hbytes' hend' hformat⟩

/-- The display of bytes is exactly that of the text which they are the bytes of, in UTF-8. Bytes
that are no document are a parse error, and no string of a document fails to be written. -/
theorem format_eq_iff (bytes : Bytes) (indentStep : ℕ)
    (result : Except FormatError Bytes) :
    formatJsonArraysInline ft bytes indentStep = result ↔ DisplayOf ft bytes indentStep result := by
  have hdisplay := displayOf_format ft bytes indentStep
  constructor
  · intro h
    rw [← h]
    exact hdisplay
  · intro h
    cases result with
    | ok output =>
        obtain ⟨text, stop, pretty, rfl, hend, hpretty, rfl⟩ := h
        rw [format_encode ft hend, hpretty]
    | error e =>
        obtain ⟨rfl, hnone⟩ := h
        cases hformat : formatJsonArraysInline ft bytes indentStep with
        | error e =>
            rw [hformat] at hdisplay
            rw [hdisplay.1]
        | ok output =>
            rw [hformat] at hdisplay
            obtain ⟨text, stop, pretty, hbytes, hend, hpretty, -⟩ := hdisplay
            rw [hnone text stop hbytes hend] at hpretty
            cases hpretty

end FastDdsSpy.ByteJson
