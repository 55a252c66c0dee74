import FastDdsSpy.Library.Utf8
import FastDdsSpy.Model.JsonString

/-! # JSON strings as bytes

`dump_escaped` of the serializer and `scan_string` of the lexer, on the bytes that a
`std::string` holds. The serializer has the settings of `dump()`: it does not escape what is not
ASCII, and its error handler is the strict one. -/

namespace FastDdsSpy.Json

abbrev Bytes := List UInt8

/-! ## `decode` -/

/-- The types of the bytes, from 00 to FF, and the next state for each state and type. -/
def utf8d : List ℕ :=
  [ 0, 0, 0, 0, 0, 0, 0, 0, 0, 0, 0, 0, 0, 0, 0, 0, 0, 0, 0, 0, 0, 0, 0, 0, 0, 0, 0, 0, 0, 0, 0, 0,
    0, 0, 0, 0, 0, 0, 0, 0, 0, 0, 0, 0, 0, 0, 0, 0, 0, 0, 0, 0, 0, 0, 0, 0, 0, 0, 0, 0, 0, 0, 0, 0,
    0, 0, 0, 0, 0, 0, 0, 0, 0, 0, 0, 0, 0, 0, 0, 0, 0, 0, 0, 0, 0, 0, 0, 0, 0, 0, 0, 0, 0, 0, 0, 0,
    0, 0, 0, 0, 0, 0, 0, 0, 0, 0, 0, 0, 0, 0, 0, 0, 0, 0, 0, 0, 0, 0, 0, 0, 0, 0, 0, 0, 0, 0, 0, 0,
    1, 1, 1, 1, 1, 1, 1, 1, 1, 1, 1, 1, 1, 1, 1, 1, 9, 9, 9, 9, 9, 9, 9, 9, 9, 9, 9, 9, 9, 9, 9, 9,
    7, 7, 7, 7, 7, 7, 7, 7, 7, 7, 7, 7, 7, 7, 7, 7, 7, 7, 7, 7, 7, 7, 7, 7, 7, 7, 7, 7, 7, 7, 7, 7,
    8, 8, 2, 2, 2, 2, 2, 2, 2, 2, 2, 2, 2, 2, 2, 2, 2, 2, 2, 2, 2, 2, 2, 2, 2, 2, 2, 2, 2, 2, 2, 2,
    10, 3, 3, 3, 3, 3, 3, 3, 3, 3, 3, 3, 3, 4, 3, 3,
    11, 6, 6, 6, 5, 8, 8, 8, 8, 8, 8, 8, 8, 8, 8, 8,
    0, 1, 2, 3, 5, 8, 7, 1, 1, 1, 4, 6, 1, 1, 1, 1,
    1, 1, 1, 1, 1, 1, 1, 1, 1, 1, 1, 1, 1, 1, 1, 1, 1, 0, 1, 1, 1, 1, 1, 0, 1, 0, 1, 1, 1, 1, 1, 1,
    1, 2, 1, 1, 1, 1, 1, 2, 1, 2, 1, 1, 1, 1, 1, 1, 1, 1, 1, 1, 1, 1, 1, 2, 1, 1, 1, 1, 1, 1, 1, 1,
    1, 2, 1, 1, 1, 1, 1, 1, 1, 2, 1, 1, 1, 1, 1, 1, 1, 1, 1, 1, 1, 1, 1, 3, 1, 3, 1, 1, 1, 1, 1, 1,
    1, 3, 1, 1, 1, 1, 1, 3, 1, 3, 1, 1, 1, 1, 1, 1, 1, 3, 1, 1, 1, 1, 1, 1, 1, 1, 1, 1, 1, 1, 1, 1]

/-- The new state, and the code point, which counts if this is the state 0. -/
def decode (state : ℕ) (codep : UInt32) (byte : UInt8) : ℕ × UInt32 :=
  let type := utf8d.getD byte.toNat 0
  (utf8d.getD (256 + state * 16 + type) 0,
    if state ≠ 0 then (byte.toUInt32 &&& (0x3F : UInt32)) ||| (codep <<< (6 : UInt32))
    else ((0xFF : UInt32) >>> UInt32.ofNat type) &&& byte.toUInt32)

/-! ## `dump_escaped` -/

/-- What stops the loop: a write outside `string_buffer`, or the two exceptions. -/
inductive DumpError
  | outOfBuffer
  | invalidByte (index : ℕ) (byte : UInt8)
  | incomplete (last : UInt8)
  deriving DecidableEq, Repr

/-- The variables of the loop, with the characters in `string_buffer` up to the index `bytes` and
those that the output adapter already has. -/
structure Serializer where
  state : ℕ := 0
  codepoint : UInt32 := 0
  stringBuffer : Bytes := []
  written : Bytes := []

/-- The size of `string_buffer`. -/
def stringBufferSize : ℕ := 512

/-- Characters written at the index `bytes`. `snprintf` also writes a null character, which the
index does not count. -/
def storeBytes (stringBuffer bytes : Bytes) (terminator : ℕ) : Except DumpError Bytes :=
  if stringBuffer.length + bytes.length + terminator ≤ stringBufferSize then
    .ok (stringBuffer ++ bytes)
  else .error .outOfBuffer

/-- The `switch` on a new code point, whose last byte is `byte`. -/
def storeCodepoint (stringBuffer : Bytes) (codepoint : UInt32) (byte : UInt8) :
    Except DumpError Bytes :=
  match codepoint.toNat with
  | 0x08 => storeBytes stringBuffer (ascii ['\\', 'b']) 0
  | 0x09 => storeBytes stringBuffer (ascii ['\\', 't']) 0
  | 0x0A => storeBytes stringBuffer (ascii ['\\', 'n']) 0
  | 0x0C => storeBytes stringBuffer (ascii ['\\', 'f']) 0
  | 0x0D => storeBytes stringBuffer (ascii ['\\', 'r']) 0
  | 0x22 => storeBytes stringBuffer (ascii ['\\', '"']) 0
  | 0x5C => storeBytes stringBuffer (ascii ['\\', '\\']) 0
  | _ =>
    if codepoint ≤ 0x1F then
      storeBytes stringBuffer (ascii (['\\', 'u'] ++ hex4 codepoint.toNat)) 1
    else storeBytes stringBuffer [byte] 0

/-- The buffer is written out when there may be too little left in it for a code point. -/
def Serializer.flush (s : Serializer) : Serializer :=
  if stringBufferSize - s.stringBuffer.length < 13 then
    { s with stringBuffer := [], written := s.written ++ s.stringBuffer }
  else s

/-- An iteration of the loop, on the byte at the index `i`. -/
def dumpByte (s : Serializer) (i : ℕ) (byte : UInt8) : Except DumpError Serializer :=
  match decode s.state s.codepoint byte with
  | (0, codepoint) =>
    (storeCodepoint s.stringBuffer codepoint byte).map fun stringBuffer =>
      Serializer.flush ⟨0, codepoint, stringBuffer, s.written⟩
  | (1, _) => .error (.invalidByte i byte)
  | (state, codepoint) =>
    (storeBytes s.stringBuffer [byte] 0).map fun stringBuffer =>
      ⟨state, codepoint, stringBuffer, s.written⟩

/-- The loop from the index `i` on. -/
def dumpBytes (s : Serializer) (i : ℕ) : Bytes → Except DumpError Serializer
  | [] => .ok s
  | byte :: bytes =>
    match dumpByte s i byte with
    | .ok s => dumpBytes s (i + 1) bytes
    | .error e => .error e

def dumpEscaped (bytes : Bytes) : Except DumpError Bytes :=
  match dumpBytes {} 0 bytes with
  | .ok s =>
    if s.state = 0 then .ok (s.written ++ s.stringBuffer)
    else .error (.incomplete (bytes.getLastD 0))
  | .error e => .error e

/-! ## `scan_string` -/

/-- `get_codepoint`, from the remaining `factors` on. -/
def getCodepointBytes (codepoint : ℕ) : List ℕ → Bytes → Option (ℕ × Bytes)
  | [], input => some (codepoint, input)
  | _ :: _, [] => none
  | factor :: factors, current :: input =>
    if 0x30 ≤ current.toNat ∧ current.toNat ≤ 0x39 then
      getCodepointBytes (codepoint + (current.toNat - 0x30) <<< factor) factors input
    else if 0x41 ≤ current.toNat ∧ current.toNat ≤ 0x46 then
      getCodepointBytes (codepoint + (current.toNat - 0x37) <<< factor) factors input
    else if 0x61 ≤ current.toNat ∧ current.toNat ≤ 0x66 then
      getCodepointBytes (codepoint + (current.toNat - 0x57) <<< factor) factors input
    else none

/-- The translation of a code point into bytes. -/
def codepointBytes (codepoint : ℕ) : Bytes :=
  if codepoint < 0x80 then [UInt8.ofNat codepoint]
  else if codepoint ≤ 0x7FF then
    [UInt8.ofNat (0xC0 ||| codepoint >>> 6), UInt8.ofNat (0x80 ||| (codepoint &&& 0x3F))]
  else if codepoint ≤ 0xFFFF then
    [UInt8.ofNat (0xE0 ||| codepoint >>> 12), UInt8.ofNat (0x80 ||| (codepoint >>> 6 &&& 0x3F)),
      UInt8.ofNat (0x80 ||| (codepoint &&& 0x3F))]
  else
    [UInt8.ofNat (0xF0 ||| codepoint >>> 18), UInt8.ofNat (0x80 ||| (codepoint >>> 12 &&& 0x3F)),
      UInt8.ofNat (0x80 ||| (codepoint >>> 6 &&& 0x3F)),
      UInt8.ofNat (0x80 ||| (codepoint &&& 0x3F))]

/-- A unicode escape, after its first `\u`. -/
def scanUnicodeBytes (input : Bytes) : Option (Bytes × Bytes) :=
  match getCodepointBytes 0 [12, 8, 4, 0] input with
  | none => none
  | some (codepoint1, input) =>
    if 0xD800 ≤ codepoint1 ∧ codepoint1 ≤ 0xDBFF then
      match input with
      | backslash :: u :: input =>
        if backslash = 0x5C ∧ u = 0x75 then
          match getCodepointBytes 0 [12, 8, 4, 0] input with
          | none => none
          | some (codepoint2, input) =>
            if 0xDC00 ≤ codepoint2 ∧ codepoint2 ≤ 0xDFFF then
              some (codepointBytes (codepoint1 <<< 10 + codepoint2 - 0x35FDC00), input)
            else none
        else none
      | _ => none
    else if 0xDC00 ≤ codepoint1 ∧ codepoint1 ≤ 0xDFFF then none
    else some (codepointBytes codepoint1, input)

/-- The escapes of one byte: what stands after the backslash, and what is added. -/
def simpleEscapes : List (UInt8 × UInt8) :=
  [(0x22, 0x22), (0x5C, 0x5C), (0x2F, 0x2F), (0x62, 0x08), (0x66, 0x0C), (0x6E, 0x0A),
    (0x72, 0x0D), (0x74, 0x09)]

/-- The `switch` after a backslash. -/
def scanEscapeBytes : Bytes → Option (Bytes × Bytes)
  | [] => none
  | current :: input =>
    match simpleEscapes.lookup current with
    | some byte => some ([byte], input)
    | none => if current = 0x75 then scanUnicodeBytes input else none

/-- The loop of `next_byte_in_range`, with the bytes that it adds. -/
def bytesInRange : List (ℕ × ℕ) → Bytes → Option (Bytes × Bytes)
  | [], input => some ([], input)
  | _ :: _, [] => none
  | range :: ranges, current :: input =>
    if range.1 ≤ current.toNat ∧ current.toNat ≤ range.2 then
      (bytesInRange ranges input).map (Prod.map (current :: ·) id)
    else none

def nextByteInRange (current : UInt8) (ranges : List (ℕ × ℕ)) (input : Bytes) :
    Option (Bytes × Bytes) :=
  (bytesInRange ranges input).map (Prod.map (current :: ·) id)

/-- An iteration of the loop of `scan_string` on a byte that is no closing quote: the bytes that
are added to `token_buffer`, and the rest of the input. -/
def scanCharacterBytes (current : UInt8) (input : Bytes) : Option (Bytes × Bytes) :=
  if current = 0x5C then scanEscapeBytes input
  else if current ≤ 0x1F then none
  else if current ≤ 0x7F then some ([current], input)
  else if 0xC2 ≤ current ∧ current ≤ 0xDF then nextByteInRange current [(0x80, 0xBF)] input
  else if current = 0xE0 then nextByteInRange current [(0xA0, 0xBF), (0x80, 0xBF)] input
  else if (0xE1 ≤ current ∧ current ≤ 0xEC) ∨ current = 0xEE ∨ current = 0xEF then
    nextByteInRange current [(0x80, 0xBF), (0x80, 0xBF)] input
  else if current = 0xED then nextByteInRange current [(0x80, 0x9F), (0x80, 0xBF)] input
  else if current = 0xF0 then
    nextByteInRange current [(0x90, 0xBF), (0x80, 0xBF), (0x80, 0xBF)] input
  else if 0xF1 ≤ current ∧ current ≤ 0xF3 then
    nextByteInRange current [(0x80, 0xBF), (0x80, 0xBF), (0x80, 0xBF)] input
  else if current = 0xF4 then
    nextByteInRange current [(0x80, 0x8F), (0x80, 0xBF), (0x80, 0xBF)] input
  else none

/-! ### Termination -/

theorem getCodepointBytes_length_le {codepoint n : ℕ} {factors : List ℕ} {input rest : Bytes}
    (h : getCodepointBytes codepoint factors input = some (n, rest)) :
    rest.length ≤ input.length := by
  fun_induction getCodepointBytes codepoint factors input with
  | case1 =>
      cases h
      exact le_rfl
  | case3 _ _ _ _ _ _ ih => exact (ih h).trans (Nat.le_succ _)
  | case4 _ _ _ _ _ _ _ ih => exact (ih h).trans (Nat.le_succ _)
  | case5 _ _ _ _ _ _ _ _ ih => exact (ih h).trans (Nat.le_succ _)
  | _ => cases h

theorem scanUnicodeBytes_length_le {input added rest : Bytes}
    (h : scanUnicodeBytes input = some (added, rest)) : rest.length ≤ input.length := by
  unfold scanUnicodeBytes at h
  split at h
  · cases h
  · next hfirst =>
      have hfirst := getCodepointBytes_length_le hfirst
      split at h
      · split at h
        · split at h
          · split at h
            · cases h
            · next hsecond =>
                have hsecond := getCodepointBytes_length_le hsecond
                split at h
                · simp only [Option.some.injEq, Prod.mk.injEq] at h
                  simp only [← h.2, List.length_cons] at hfirst ⊢
                  omega
                · cases h
          · cases h
        · cases h
      · split at h
        · cases h
        · simp only [Option.some.injEq, Prod.mk.injEq] at h
          rwa [← h.2]

theorem scanEscapeBytes_length_le {input added rest : Bytes}
    (h : scanEscapeBytes input = some (added, rest)) : rest.length ≤ input.length := by
  unfold scanEscapeBytes at h
  split at h
  · cases h
  · split at h
    · cases h
      exact Nat.le_succ _
    · split at h
      · exact (scanUnicodeBytes_length_le h).trans (Nat.le_succ _)
      · cases h

theorem bytesInRange_length_le {ranges : List (ℕ × ℕ)} {input added rest : Bytes}
    (h : bytesInRange ranges input = some (added, rest)) : rest.length ≤ input.length := by
  induction ranges generalizing input added with
  | nil =>
      cases h
      exact le_rfl
  | cons range ranges ih =>
      cases input with
      | nil => cases h
      | cons current input =>
          rw [bytesInRange] at h
          split at h
          · obtain ⟨⟨bytes, rest'⟩, hbytes, hr⟩ := Option.map_eq_some_iff.mp h
            cases hr
            exact (ih hbytes).trans (Nat.le_succ _)
          · cases h

theorem nextByteInRange_length_le {current : UInt8} {ranges : List (ℕ × ℕ)}
    {input added rest : Bytes} (h : nextByteInRange current ranges input = some (added, rest)) :
    rest.length ≤ input.length := by
  obtain ⟨⟨bytes, rest'⟩, hbytes, hr⟩ := Option.map_eq_some_iff.mp h
  cases hr
  exact bytesInRange_length_le hbytes

theorem scanCharacterBytes_length_le {current : UInt8} {input added rest : Bytes}
    (h : scanCharacterBytes current input = some (added, rest)) : rest.length ≤ input.length := by
  unfold scanCharacterBytes at h
  split at h
  · exact scanEscapeBytes_length_le h
  split at h
  · cases h
  split at h
  · cases h
    exact le_rfl
  all_goals
    repeat' split at h
    all_goals
      first
      | exact nextByteInRange_length_le h
      | cases h

/-- The loop of `scan_string`, after the opening quote: `token_buffer` and the rest of the
input. -/
def scanStringBytes : Bytes → Option (Bytes × Bytes)
  | [] => none
  | current :: input =>
    if current = 0x22 then some ([], input)
    else
      match _h : scanCharacterBytes current input with
      | none => none
      | some (added, rest) => (scanStringBytes rest).map (Prod.map (added ++ ·) id)
termination_by input => input.length
decreasing_by exact Nat.lt_succ_of_le (scanCharacterBytes_length_le _h)

end FastDdsSpy.Json
