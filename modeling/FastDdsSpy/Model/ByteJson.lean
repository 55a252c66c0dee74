import FastDdsSpy.Model.JsonBytes
import FastDdsSpy.Model.JsonFormat
import FastDdsSpy.Model.NumberText

/-! # JSON documents as bytes

`json::parse` and the printer of `Controller.cpp` on the bytes that a `std::string` holds. The
strings of a value are bytes as well, and the members of an object are in the order of these. -/

namespace FastDdsSpy.ByteJson

open Json Utf8

theorem scanStringBytes_length_le {input buffer rest : Bytes}
    (h : scanStringBytes input = some (buffer, rest)) : rest.length ≤ input.length := by
  fun_induction scanStringBytes input generalizing buffer with
  | case1 => cases h
  | case2 =>
      cases h
      exact Nat.le_succ _
  | case3 => cases h
  | case4 current input _ added rest' hscan ih =>
      obtain ⟨⟨bytes, rest''⟩, hbytes, hr⟩ := Option.map_eq_some_iff.mp h
      cases hr
      have hrest := scanCharacterBytes_length_le hscan
      have hlength := ih hbytes
      rw [List.length_cons]
      omega

variable {φ : Type*} (ft : FloatText φ)

/-- The lexer reads strings and numbers from bytes. -/
def scanner : Scanner (JsonNumber φ) Bytes UInt8 where
  scanString := scanStringBytes
  scanNumber := scanNumber ft
  scanString_length_le := scanStringBytes_length_le
  scanNumber_shorter := scanNumber_shorter ft

/-- `skip_bom`; `none` when it fails. -/
def skipBom : Bytes → Option Bytes
  | [] => some []
  | first :: bytes =>
    if first = 0xEF then
      match bytes with
      | second :: third :: bytes => if second = 0xBB ∧ third = 0xBF then some bytes else none
      | _ => none
    else some (first :: bytes)

/-- `json::parse`; `none` when it throws. -/
def parse (bytes : Bytes) : Option (Json (JsonNumber φ) Bytes) :=
  (skipBom bytes).bind (parseFrom (scanner ft))

/-- `dump` of a primitive. -/
def dump : Primitive (JsonNumber φ) Bytes → Except DumpError Bytes
  | .null => .ok (ascii ['n', 'u', 'l', 'l'])
  | .boolean true => .ok (ascii ['t', 'r', 'u', 'e'])
  | .boolean false => .ok (ascii ['f', 'a', 'l', 's', 'e'])
  | .number value => .ok (encode (dumpNumber ft value))
  | .string value => (dumpEscaped value).map fun escaped => 0x22 :: (escaped ++ [0x22])

/-- The exceptions of the display: of `json::parse`, and of `dump`. -/
inductive FormatError
  | parseError
  | typeError (e : DumpError)
  deriving DecidableEq, Repr

/-- `format_json_arrays_inline`. -/
def formatJsonArraysInline (jsonStr : Bytes) (indentStep : ℕ) : Except FormatError Bytes :=
  match parse ft jsonStr with
  | none => .error .parseError
  | some j => (print (dump ft) j 0 indentStep).mapError .typeError

end FastDdsSpy.ByteJson
