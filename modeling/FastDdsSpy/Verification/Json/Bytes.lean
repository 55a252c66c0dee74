import FastDdsSpy.Verification.Json.DumpBytes
import FastDdsSpy.Verification.Json.ScanBytes

/-! # Round trip of strings

The lexer reads back the bytes that the serializer has written. -/

namespace FastDdsSpy.Json

open Utf8

/-- The escapes of a text are a string of the grammar, with this text as its value. -/
theorem stringText_escape (text : Text) : StringText (text.flatMap escape) text := by
  have hscan : scanCharacters (text.flatMap escape ++ ['"']) = some (text, []) := by
    induction text with
    | nil => rw [List.flatMap_nil, List.nil_append, scanCharacters]
    | cons c text ih =>
        rw [List.flatMap_cons, List.append_assoc, scanCharacters_escape, ih]
        rfl
  obtain ⟨body, hbody, htext⟩ := scanCharacters_sound hscan
  obtain ⟨rfl, -⟩ := List.append_inj' hbody rfl
  exact htext

/-- What the serializer writes is read back to the same bytes, and it writes every string that is
UTF-8. -/
theorem scanStringBytes_dumpEscaped (bytes rest : Bytes) :
    match dumpEscaped bytes with
    | .ok output => scanStringBytes (output ++ 0x22 :: rest) = some (bytes, rest)
    | .error _ => ∀ text, encode text ≠ bytes := by
  have hdumps := dumps_dumpEscaped bytes
  generalize dumpEscaped bytes = result at hdumps
  cases hdumps with
  | text text h =>
      rw [← h]
      exact scanStringBytes_complete (stringText_escape text) rest
  | invalid pre post byte h hpre hbyte =>
      intro text htext
      refine hbyte ⟨text, post, ?_⟩
      rw [htext, h]
      simp
  | incomplete last h htext hlast => exact htext

end FastDdsSpy.Json
