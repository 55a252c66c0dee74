import FastDdsSpy.Library.OrderedPairs
import FastDdsSpy.Model.JsonString

/-! # JSON values and `json::parse`

The values of `nlohmann::json` that a text can hold, and the parser of the library: the
lexer reads one token at a time, and `sax_parse_internal` is a loop over a stack of open
arrays and objects. It is the same code for bytes, and for the code points of a text. -/

namespace FastDdsSpy

/-- The values for which `is_primitive` holds, with numbers of type `ν` and strings of type
`σ`. -/
inductive Primitive (ν : Type*) (σ : Type := String)
  | null
  | boolean (value : Bool)
  | number (value : ν)
  | string (value : σ)

inductive Json (ν : Type*) (σ : Type := String)
  | primitive (value : Primitive ν σ)
  | array (values : List (Json ν σ))
  | object (members : List (σ × Json ν σ))

/-- `is_primitive`, with the value that it is. -/
def Json.primitive? {ν : Type*} {σ : Type} : Json ν σ → Option (Primitive ν σ)
  | .primitive value => some value
  | _ => none

/-- An object is a `std::map`: its members are in the order of their keys. -/
inductive Json.Ordered {ν : Type*} {σ : Type} [LinearOrder σ] : Json ν σ → Prop
  | primitive (value) : Ordered (.primitive value)
  | array {values} (h : ∀ j ∈ values, Ordered j) : Ordered (.array values)
  | object {members} (hsorted : OrderedPairs.Sorted members)
      (h : ∀ m ∈ members, Ordered m.2) : Ordered (.object members)

/-- `scan_string` after the opening quote, and `scan_number` from the first character of the
token on. They fail on a parse error, and the second one also on a float that is not finite,
which the parser rejects; otherwise a number takes at least that character. -/
structure Scanner (ν : Type*) (σ χ : Type) where
  scanString : List χ → Option (σ × List χ)
  scanNumber : List χ → Option (ν × List χ)
  scanString_length_le {input value rest} :
    scanString input = some (value, rest) → rest.length ≤ input.length
  scanNumber_shorter {input value rest} :
    scanNumber input = some (value, rest) → rest.length < input.length

/-- `dump` and `scan_number` of numbers in texts. -/
structure NumberText (ν : Type*) where
  dumpNumber : ν → Text
  scanNumber : Text → Option (ν × Text)
  scanNumber_shorter {text value rest} :
    scanNumber text = some (value, rest) → rest.length < text.length

def NumberText.scanner {ν : Type*} (nt : NumberText ν) : Scanner ν String Char where
  scanString text := Json.scanString ('"' :: text)
  scanNumber := nt.scanNumber
  scanString_length_le h := Nat.le_of_lt_succ (Json.scanString_shorter h)
  scanNumber_shorter := nt.scanNumber_shorter

/-! ## The lexer -/

/-- `token_type`. The literals, strings and numbers are one kind of token, with the value
that the parser passes on. -/
inductive Token (ν : Type*) (σ : Type := String)
  | beginArray
  | endArray
  | beginObject
  | endObject
  | nameSeparator
  | valueSeparator
  | value (value : Primitive ν σ)
  | endOfInput
  | parseError

/-- The number of characters that a token surely takes. -/
def Token.weight {ν : Type*} {σ : Type} : Token ν σ → ℕ
  | .endOfInput | .parseError => 0
  | _ => 1

def isWhitespace (c : Char) : Bool := c = ' ' || c = '\t' || c = '\n' || c = '\r'

/-- The characters that select `scan_number`. -/
def startsNumber (c : Char) : Bool := c = '-' || c.isDigit

open TextUnit

/-- `skip_whitespace`. -/
def skipWhitespace {χ : Type} [TextUnit χ] (input : List χ) : List χ :=
  input.dropWhile fun current => isWhitespace (charOf current)

/-- `skip_bom`, before the first token. -/
def skipBom : Text → Text
  | '\uFEFF' :: rest => rest
  | text => text

namespace Json

variable {ν : Type*} {σ χ : Type}

section Lexer

variable [TextUnit χ] (sc : Scanner ν σ χ)

/-- The token of a scanned value. The parser reads nothing after a parse error. -/
def valueToken {α : Type*} (f : α → Primitive ν σ) : Option (α × List χ) → Token ν σ × List χ
  | some (value, rest) => (.value (f value), rest)
  | none => (.parseError, [])

/-- `scan_literal`. -/
def scanLiteral (literal : Text) (value : Primitive ν σ) (input : List χ) : Token ν σ × List χ :=
  if literal <+: input.map charOf then (.value value, input.drop literal.length)
  else (.parseError, [])

/-- The `switch` of `scan`, on the first character after the whitespace. -/
def scanToken : List χ → Token ν σ × List χ
  | [] => (.endOfInput, [])
  | current :: rest =>
    match charOf current with
    | '[' => (.beginArray, rest)
    | ']' => (.endArray, rest)
    | '{' => (.beginObject, rest)
    | '}' => (.endObject, rest)
    | ':' => (.nameSeparator, rest)
    | ',' => (.valueSeparator, rest)
    | 't' => scanLiteral ['t', 'r', 'u', 'e'] (.boolean true) (current :: rest)
    | 'f' => scanLiteral ['f', 'a', 'l', 's', 'e'] (.boolean false) (current :: rest)
    | 'n' => scanLiteral ['n', 'u', 'l', 'l'] .null (current :: rest)
    | '"' => valueToken .string (sc.scanString rest)
    | '\x00' => (.endOfInput, rest)
    | c =>
      if startsNumber c then valueToken .number (sc.scanNumber (current :: rest))
      else (.parseError, [])

/-- `scan`. -/
def scan (input : List χ) : Token ν σ × List χ := scanToken sc (skipWhitespace input)

end Lexer

/-! ## The parser -/

/-- An open array with its elements, or an open object with its members and the key of the
value being read: an entry of `states` and the container that `ref_stack` has for it. -/
inductive Frame (ν : Type*) (σ : Type := String)
  | array (values : List (Json ν σ))
  | object (members : List (σ × Json ν σ)) (key : σ)

/-- Where an iteration of the loop starts: at `last_token`, or at the state evaluation
after a value that was closed (`skip_to_state_evaluation`). -/
inductive Control (ν : Type*) (σ : Type := String)
  | token (lastToken : Token ν σ)
  | value (value : Json ν σ)

/-- The state at the start of an iteration. -/
structure ParserState (ν : Type*) (σ : Type := String) (χ : Type := Char) where
  control : Control ν σ
  input : List χ
  stack : List (Frame ν σ)

/-- What an iteration ends with: the next one, the value and the text after it, or an
exception. -/
inductive Flow (ν : Type*) (σ : Type := String) (χ : Type := Char)
  | next (state : ParserState ν σ χ)
  | done (value : Json ν σ) (input : List χ)
  | error

section Parser

variable [LinearOrder σ] [TextUnit χ] (sc : Scanner ν σ χ)

/-- `get_token()` before the next iteration. -/
def getToken (input : List χ) (stack : List (Frame ν σ)) : ParserState ν σ χ :=
  ⟨.token (scan sc input).1, (scan sc input).2, stack⟩

/-- The key in the last token and the separator after it. -/
def objectKey : Token ν σ × List χ → Option (σ × List χ)
  | (.value (.string key), input) =>
    match scan sc input with
    | (.nameSeparator, input) => some (key, input)
    | _ => none
  | _ => none

/-- The state evaluation, after a value. -/
def evaluate (value : Json ν σ) (input : List χ) : List (Frame ν σ) → Flow ν σ χ
  | [] => .done value input
  | .array values :: stack =>
    match scan sc input with
    | (.valueSeparator, input) => .next (getToken sc input (.array (values ++ [value]) :: stack))
    | (.endArray, input) => .next ⟨.value (.array (values ++ [value])), input, stack⟩
    | _ => .error
  | .object members key :: stack =>
    match scan sc input with
    | (.valueSeparator, input) =>
      match objectKey sc (scan sc input) with
      | some (next, input) =>
        .next (getToken sc input (.object (OrderedPairs.assign key value members) next :: stack))
      | none => .error
    | (.endObject, input) =>
      .next ⟨.value (.object (OrderedPairs.assign key value members)), input, stack⟩
    | _ => .error

/-- An iteration of `sax_parse_internal`. -/
def step (s : ParserState ν σ χ) : Flow ν σ χ :=
  match s.control with
  | .token .beginObject =>
    match scan sc s.input with
    | (.endObject, input) => evaluate sc (.object []) input s.stack
    | lastToken =>
      match objectKey sc lastToken with
      | some (key, input) => .next (getToken sc input (.object [] key :: s.stack))
      | none => .error
  | .token .beginArray =>
    match scan sc s.input with
    | (.endArray, input) => evaluate sc (.array []) input s.stack
    | (lastToken, input) => .next ⟨.token lastToken, input, .array [] :: s.stack⟩
  | .token (.value value) => evaluate sc (.primitive value) s.input s.stack
  | .token _ => .error
  | .value value => evaluate sc value s.input s.stack

end Parser

/-! ### Termination

Every iteration that is followed by another one reads a token. -/

def Control.weight : Control ν σ → ℕ
  | .token lastToken => lastToken.weight
  | .value _ => 1

def ParserState.measure (s : ParserState ν σ χ) : ℕ := s.input.length + s.control.weight

theorem valueToken_shorter {α : Type*} (f : α → Primitive ν σ) {r : Option (α × List χ)}
    {input : List χ} (h : ∀ value rest, r = some (value, rest) → rest.length < input.length) :
    (valueToken f r).2.length + (valueToken f r).1.weight ≤ input.length := by
  cases r with
  | none => simp [valueToken, Token.weight]
  | some r => exact h r.1 r.2 rfl

section Shorter

variable [TextUnit χ] (sc : Scanner ν σ χ)

theorem scanLiteral_shorter (literal : Text) (value : Primitive ν σ) (input : List χ)
    (h : 0 < literal.length) :
    (scanLiteral literal value input).2.length + (scanLiteral literal value input).1.weight ≤
      input.length := by
  unfold scanLiteral
  split
  · next hprefix =>
      have hle := hprefix.length_le
      simp only [List.length_map, List.length_drop, Token.weight] at hle ⊢
      omega
  · simp [Token.weight]

theorem scanToken_shorter (input : List χ) :
    (scanToken sc input).2.length + (scanToken sc input).1.weight ≤ input.length := by
  unfold scanToken
  split
  · simp [Token.weight]
  · split
    case h_7 | h_8 | h_9 => exact scanLiteral_shorter _ _ _ (Nat.zero_lt_succ _)
    case h_10 =>
        exact valueToken_shorter _ fun _ _ h => Nat.lt_succ_of_le (sc.scanString_length_le h)
    case h_12 =>
        split
        · exact valueToken_shorter _ fun _ _ => sc.scanNumber_shorter
        · simp [Token.weight]
    all_goals simp [Token.weight]

theorem scan_shorter (input : List χ) :
    (scan sc input).2.length + (scan sc input).1.weight ≤ input.length :=
  (scanToken_shorter sc _).trans (List.dropWhile_sublist _).length_le

theorem length_of_scan {input rest : List χ} {last : Token ν σ}
    (h : scan sc input = (last, rest)) : rest.length + last.weight ≤ input.length := by
  have hshort := scan_shorter sc input
  rwa [h] at hshort

theorem measure_getToken (input : List χ) (stack : List (Frame ν σ)) :
    (getToken sc input stack).measure ≤ input.length :=
  scan_shorter sc input

theorem objectKey_shorter {t : Token ν σ × List χ} {key : σ} {input : List χ}
    (h : objectKey sc t = some (key, input)) :
    input.length < t.2.length + t.1.weight := by
  unfold objectKey at h
  split at h
  · split at h
    · next hscan =>
        cases h
        exact Nat.lt_succ_of_lt (length_of_scan sc hscan)
    · simp at h
  · simp at h

end Shorter

section Exec

variable [LinearOrder σ] [TextUnit χ] (sc : Scanner ν σ χ)

theorem evaluate_shorter {value : Json ν σ} {input : List χ} {stack : List (Frame ν σ)}
    {s : ParserState ν σ χ} (h : evaluate sc value input stack = .next s) :
    s.measure ≤ input.length := by
  unfold evaluate at h
  split at h
  · simp at h
  · split at h
    · next hscan =>
        cases h
        exact (measure_getToken sc _ _).trans (Nat.le_of_succ_le (length_of_scan sc hscan))
    · next hscan =>
        cases h
        exact length_of_scan sc hscan
    · simp at h
  · split at h
    · next rest hscan =>
        split at h
        · next hkey =>
            cases h
            have hlt := (objectKey_shorter sc hkey).trans_le (scan_shorter sc rest)
            have hle := Nat.le_of_succ_le (length_of_scan sc hscan)
            exact (measure_getToken sc _ _).trans (hlt.le.trans hle)
        · simp at h
    · next hscan =>
        cases h
        exact length_of_scan sc hscan
    · simp at h

/-- The evaluation after a container that is closed at once. -/
theorem evaluate_closed_shorter {value : Json ν σ} {last : Token ν σ} {input rest : List χ}
    {stack : List (Frame ν σ)} {s : ParserState ν σ χ} (hscan : scan sc input = (last, rest))
    (h : evaluate sc value rest stack = .next s) : s.measure ≤ input.length :=
  (evaluate_shorter sc h).trans (le_of_add_le_left (length_of_scan sc hscan))

theorem step_shorter {s t : ParserState ν σ χ} (h : step sc s = .next t) :
    t.measure < s.measure := by
  unfold step at h
  rw [ParserState.measure.eq_def s]
  split at h
  · next hcontrol =>
      rw [hcontrol]
      split at h
      · next hscan => exact Nat.lt_succ_of_le (evaluate_closed_shorter sc hscan h)
      · split at h
        · next hkey =>
            cases h
            have hlt := (objectKey_shorter sc hkey).trans_le (scan_shorter sc s.input)
            exact (measure_getToken sc _ _).trans_lt (Nat.lt_succ_of_lt hlt)
        · simp at h
  · next hcontrol =>
      rw [hcontrol]
      split at h
      · next hscan => exact Nat.lt_succ_of_le (evaluate_closed_shorter sc hscan h)
      · next hscan =>
          cases h
          exact Nat.lt_succ_of_le (length_of_scan sc hscan)
  · next hcontrol =>
      rw [hcontrol]
      exact Nat.lt_succ_of_le (evaluate_shorter sc h)
  · simp at h
  · next hcontrol =>
      rw [hcontrol]
      exact Nat.lt_succ_of_le (evaluate_shorter sc h)

/-- The loop of `sax_parse_internal`: the value read and the text after it. -/
def exec (s : ParserState ν σ χ) : Option (Json ν σ × List χ) :=
  match _h : step sc s with
  | .next t => exec t
  | .done value input => some (value, input)
  | .error => none
termination_by s.measure
decreasing_by exact step_shorter sc _h

/-- `parse`, after `skip_bom`. -/
def parseFrom (input : List χ) : Option (Json ν σ) :=
  match exec sc (getToken sc input []) with
  | some (value, input) =>
    match scan sc input with
    | (.endOfInput, _) => some value
    | _ => none
  | none => none

end Exec

/-- `json::parse`; `none` when it throws. -/
def parse (nt : NumberText ν) (text : Text) : Option (Json ν) :=
  parseFrom nt.scanner (skipBom text)

end Json

end FastDdsSpy
