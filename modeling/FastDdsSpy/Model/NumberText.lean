import FastDdsSpy.Library.NumberLiteral
import FastDdsSpy.Model.YamlWriter

/-! # Numbers in JSON texts

`scan_number` of the lexer, and `dump_integer` and `dump_float` of the serializer. A
`double` is finite here: the parser rejects the others. -/

namespace FastDdsSpy

/-! ## The lexer -/

/-- The labels of `scan_number`; `init` is the `switch` in front of them. -/
inductive NumberState
  | init | minus | zero | any1 | decimal1 | decimal2 | exponent | sign | any2
  deriving DecidableEq, Repr

/-- `number_type`. -/
inductive NumberType
  | unsigned | integer | float
  deriving DecidableEq, Repr

namespace NumberState

/-- The assignment to `number_type` at a label. -/
def enter : NumberState → NumberType → NumberType
  | .minus, _ => .integer
  | .decimal1, _ | .exponent, _ => .float
  | _, numberType => numberType

/-- The label that the `switch` of a label jumps to; `none` for its `default`. -/
def next (state : NumberState) (current : Char) : Option NumberState :=
  match state with
  | .init =>
    if current = '-' then some .minus
    else if current = '0' then some .zero
    else if current.isDigit then some .any1
    else none
  | .minus =>
    if current = '0' then some .zero else if current.isDigit then some .any1 else none
  | .zero =>
    if current = '.' then some .decimal1
    else if current = 'e' ∨ current = 'E' then some .exponent
    else none
  | .any1 =>
    if current.isDigit then some .any1
    else if current = '.' then some .decimal1
    else if current = 'e' ∨ current = 'E' then some .exponent
    else none
  | .decimal1 => if current.isDigit then some .decimal2 else none
  | .decimal2 =>
    if current.isDigit then some .decimal2
    else if current = 'e' ∨ current = 'E' then some .exponent
    else none
  | .exponent =>
    if current = '+' ∨ current = '-' then some .sign
    else if current.isDigit then some .any2
    else none
  | .sign | .any2 => if current.isDigit then some .any2 else none

/-- The `default` of the label goes to `scan_number_done`; elsewhere it is an error. -/
def isDone : NumberState → Bool
  | .zero | .any1 | .decimal2 | .any2 => true
  | _ => false

end NumberState

open TextUnit

/-- `scan_number` from a label on, as far as `scan_number_done`: the type of the number, the
characters added to `token_buffer` and the text that is not read. -/
def scanLabel {χ : Type} [TextUnit χ] (state : NumberState) (numberType : NumberType) :
    List χ → Option (NumberType × List χ × List χ)
  | [] => if state.isDone then some (numberType, [], []) else none
  | current :: rest =>
    match state.next (charOf current) with
    | some target =>
      (scanLabel target (target.enter numberType) rest).map fun r => (r.1, current :: r.2.1, r.2.2)
    | none => if state.isDone then some (numberType, [], current :: rest) else none

/-- `strtoull` on a text of digits; `none` when it sets `errno`. -/
def strtoull (tokenBuffer : Text) : Option UInt64 :=
  (Decimals.natural? tokenBuffer).bind fun x =>
    if x < 2 ^ 64 then some (.ofNat x) else none

/-- `strtoll` on a text of digits with a sign; `none` when it sets `errno`. -/
def strtoll (tokenBuffer : Text) : Option Int64 :=
  (Decimals.integer? tokenBuffer).bind fun x =>
    if -2 ^ 63 ≤ x ∧ x < 2 ^ 63 then some (.ofInt x) else none

/-- What the library needs of `double`, on its finite values: `strtod`, which fails here when
its result is infinite, `signbit`, the comparison with zero, the negation, and the digits and
the decimal exponent that `grisu2` finds for a positive value. -/
structure FloatText (φ : Type*) where
  strtod : Text → Option φ
  signbit : φ → Bool
  isZero : φ → Bool
  neg : φ → φ
  grisu2 : φ → Text × ℤ

variable {φ : Type*} (ft : FloatText φ)

/-- `scan_number_done`, with the check of the parser that a float is finite. -/
def convertNumber (numberType : NumberType) (tokenBuffer : Text) : Option (JsonNumber φ) :=
  let float := (ft.strtod tokenBuffer).map .float
  match numberType with
  | .unsigned =>
    match strtoull tokenBuffer with
    | some x => some (.unsigned x)
    | none => float
  | .integer =>
    match strtoll tokenBuffer with
    | some x => some (.integer x)
    | none => float
  | .float => float

section Scan

variable {χ : Type} [TextUnit χ]

/-- `scan_number`. -/
def scanNumber (input : List χ) : Option (JsonNumber φ × List χ) :=
  match scanLabel .init .unsigned input with
  | some (numberType, tokenBuffer, rest) =>
    (convertNumber ft numberType (tokenBuffer.map charOf)).map fun value => (value, rest)
  | none => none

theorem scanLabel_append {state : NumberState} {numberType result : NumberType}
    {input token rest : List χ}
    (h : scanLabel state numberType input = some (result, token, rest)) :
    input = token ++ rest := by
  induction input generalizing state numberType token with
  | nil =>
      simp only [scanLabel, Option.ite_none_right_eq_some] at h
      cases h.2
      rfl
  | cons current input ih =>
      simp only [scanLabel] at h
      split at h
      · obtain ⟨r, hr, heq⟩ := Option.map_eq_some_iff.mp h
        cases heq
        rw [List.cons_append, ← ih hr]
      · simp only [Option.ite_none_right_eq_some] at h
        cases h.2
        rfl

/-- Nothing is done before the first character is read. -/
theorem scanNumber_shorter {input rest : List χ} {value : JsonNumber φ}
    (h : scanNumber ft input = some (value, rest)) : rest.length < input.length := by
  unfold scanNumber at h
  split at h
  · next numberType token rest' hscan =>
      obtain ⟨_, _, heq⟩ := Option.map_eq_some_iff.mp h
      cases heq
      have hne : token ≠ [] := by
        rintro rfl
        cases input with
        | nil => simp [scanLabel, NumberState.isDone] at hscan
        | cons current input =>
            simp only [scanLabel] at hscan
            split at hscan
            · obtain ⟨_, _, hcons⟩ := Option.map_eq_some_iff.mp hscan
              simp at hcons
            · simp [NumberState.isDone] at hscan
      rw [scanLabel_append hscan, List.length_append]
      have hpos := List.length_pos_iff.mpr hne
      omega
  · simp at h

end Scan

/-! ## The serializer -/

/-- `static_cast<char>('0' + k)`. -/
def asciiDigit (k : ℕ) : Char := Char.ofNat (48 + k)

/-- `count_digits`, with `n_digits` as it is at the start of an iteration. -/
def countDigits (x nDigits : ℕ) : ℕ :=
  if x < 10 then nDigits
  else if x < 100 then nDigits + 1
  else if x < 1000 then nDigits + 2
  else if x < 10000 then nDigits + 3
  else countDigits (x / 10000) (nDigits + 4)

/-- The two characters of an entry of `digits_to_99` at `buffer_ptr`, which moves down. -/
def writePair (buffer : Text) (bufferPtr digitsIndex : ℕ) : Text :=
  (buffer.set (bufferPtr - 1) (asciiDigit (digitsIndex % 10))).set (bufferPtr - 2)
    (asciiDigit (digitsIndex / 10))

/-- The loop of `dump_integer` over `abs_value`, and the digits left after it. -/
def writeDigits (absValue : ℕ) (buffer : Text) (bufferPtr : ℕ) : Text :=
  if 100 ≤ absValue then
    writeDigits (absValue / 100) (writePair buffer bufferPtr (absValue % 100)) (bufferPtr - 2)
  else if 10 ≤ absValue then writePair buffer bufferPtr absValue
  else buffer.set (bufferPtr - 1) (asciiDigit absValue)

/-- `dump_integer`, given what is in `number_buffer`. -/
def dumpInteger (numberBuffer : Text) (isNegativeNumber : Bool) (absValue : UInt64) : Text :=
  if absValue = 0 then ['0']
  else if isNegativeNumber then
    let nChars := 1 + countDigits absValue.toNat 1
    (writeDigits absValue.toNat (numberBuffer.set 0 '-') nChars).take nChars
  else
    let nChars := countDigits absValue.toNat 1
    (writeDigits absValue.toNat numberBuffer nChars).take nChars

/-- `remove_sign`. -/
def removeSign (x : Int64) : UInt64 := (-(x + 1)).toUInt64 + 1

/-- `dump_integer` for `number_integer_t`. -/
def dumpInt64 (numberBuffer : Text) (x : Int64) : Text :=
  dumpInteger numberBuffer (x < 0) (if x < 0 then removeSign x else x.toUInt64)

/-- `dump_integer` for `number_unsigned_t`. -/
def dumpUInt64 (numberBuffer : Text) (x : UInt64) : Text := dumpInteger numberBuffer false x

/-- `append_exponent`. -/
def appendExponent (e : ℤ) : Text :=
  let k := e.natAbs
  (if e < 0 then '-' else '+') ::
    if k < 10 then ['0', asciiDigit k]
    else if k < 100 then [asciiDigit (k / 10), asciiDigit (k % 10)]
    else [asciiDigit (k / 100), asciiDigit (k % 100 / 10), asciiDigit (k % 100 % 10)]

/-- `format_buffer`. -/
def formatBuffer (buf : Text) (decimalExponent minExp maxExp : ℤ) : Text :=
  let k : ℤ := buf.length
  let n := k + decimalExponent
  if k ≤ n ∧ n ≤ maxExp then buf ++ List.replicate (n - k).toNat '0' ++ ['.', '0']
  else if 0 < n ∧ n ≤ maxExp then buf.take n.toNat ++ '.' :: buf.drop n.toNat
  else if minExp < n ∧ n ≤ 0 then '0' :: '.' :: (List.replicate (-n).toNat '0' ++ buf)
  else if k = 1 then buf ++ 'e' :: appendExponent (n - 1)
  else buf.take 1 ++ '.' :: (buf.drop 1 ++ 'e' :: appendExponent (n - 1))

namespace FloatText

/-- The value without its sign. -/
def abs (x : φ) : φ := if ft.signbit x then ft.neg x else x

/-- `to_chars`. -/
def toChars (x : φ) : Text :=
  NumberLiteral.signText (ft.signbit x) ++
    if ft.isZero (ft.abs x) then ['0', '.', '0']
    else formatBuffer (ft.grisu2 (ft.abs x)).1 (ft.grisu2 (ft.abs x)).2 (-4) 15

end FloatText

/-- `dump` of a number by a new serializer, whose buffer holds zeros. -/
def dumpNumber : JsonNumber φ → Text
  | .integer x => dumpInt64 (List.replicate 64 '\x00') x
  | .unsigned x => dumpUInt64 (List.replicate 64 '\x00') x
  | .float x => ft.toChars x

/-- The numbers of `nlohmann::json`. -/
def jsonNumbers : NumberText (JsonNumber φ) where
  dumpNumber := dumpNumber ft
  scanNumber := scanNumber ft
  scanNumber_shorter := scanNumber_shorter ft

end FastDdsSpy
