import FastDdsSpy.Model.Json

/-! # Display of user data

The printer of `Controller.cpp`. A function that writes to a stream returns what it appends, in
the monad in which `dump` can throw. -/

namespace FastDdsSpy

/-- `std::string(n, ' ')`. -/
def spaces {χ : Type} [TextUnit χ] (n : ℕ) : List χ := ascii (List.replicate n ' ')

namespace Json

variable {ν : Type*} {σ χ : Type} [TextUnit χ] {m : Type → Type} [Monad m]
  (dump : Primitive ν σ → m (List χ))

/-- The loop over the primitives after the first one. -/
def printPrimitives : List (Primitive ν σ) → m (List χ)
  | [] => pure []
  | value :: rest => do
    let text ← dump value
    let others ← printPrimitives rest
    return ascii [',', ' '] ++ text ++ others

mutual

/-- `print_json_arrays_inline`. -/
def print : Json ν σ → ℕ → ℕ → m (List χ)
  | .object members, indent, step => do
    let body ←
      (match members with
        | [] => pure []
        | (key, value) :: rest => do
          let name ← dump (.string key)
          let text ← print value (indent + step) step
          let others ← printMembers rest (indent + step) step
          return spaces (indent + step) ++ name ++ ascii [':', ' '] ++ text ++ others)
    return ascii ['{', '\n'] ++ body ++ ascii ['\n'] ++ spaces indent ++ ascii ['}']
  | .array values, indent, step =>
    match values.mapM primitive? with
    | some primitives => do
      let body ←
        (match primitives with
          | [] => pure []
          | value :: rest => do
            let text ← dump value
            let others ← printPrimitives dump rest
            return text ++ others)
      return ascii ['['] ++ body ++ ascii [']']
    | none => do
      let body ←
        (match values with
          | [] => pure []
          | value :: rest => do
            let text ← print value (indent + step) step
            let others ← printElements rest (indent + step) step
            return spaces (indent + step) ++ text ++ others)
      return ascii ['[', '\n'] ++ body ++ ascii ['\n'] ++ spaces indent ++ ascii [']']
  | .primitive value, _, _ => dump value
termination_by structural j => j

/-- The loop over the members after the first one. -/
def printMembers : List (σ × Json ν σ) → ℕ → ℕ → m (List χ)
  | [], _, _ => pure []
  | (key, value) :: rest, indent, step => do
    let name ← dump (.string key)
    let text ← print value indent step
    let others ← printMembers rest indent step
    return ascii [',', '\n'] ++ spaces indent ++ name ++ ascii [':', ' '] ++ text ++ others
termination_by structural members => members

/-- The loop over the elements after the first one. -/
def printElements : List (Json ν σ) → ℕ → ℕ → m (List χ)
  | [], _, _ => pure []
  | value :: rest, indent, step => do
    let text ← print value indent step
    let others ← printElements rest indent step
    return ascii [',', '\n'] ++ spaces indent ++ text ++ others
termination_by structural values => values

end

end Json

variable {ν : Type*} (nt : NumberText ν)

/-- `dump` of a primitive. -/
def dump : Primitive ν → Text
  | .null => ['n', 'u', 'l', 'l']
  | .boolean true => ['t', 'r', 'u', 'e']
  | .boolean false => ['f', 'a', 'l', 's', 'e']
  | .number value => nt.dumpNumber value
  | .string value => Json.dumpString value

/-- `print_json_arrays_inline` for a text, of which `dump` writes every string. -/
def printJsonArraysInline (j : Json ν) (indent step : ℕ) : Text :=
  (Json.print (fun value => (pure (dump nt value) : Id Text)) j indent step).run

/-- `format_json_arrays_inline`; `none` when `json::parse` throws. -/
def formatJsonArraysInline (jsonStr : Text) (indentStep : ℕ) : Option Text :=
  (Json.parse nt jsonStr).map fun j => printJsonArraysInline nt j 0 indentStep

/-- The lines that `data_stream_callback_` writes for the text of `json_serialize`, which is
`none` if that fails. -/
def dataStreamCallback : Option Text → Option (List Text)
  | none => some [['-', '-', '-']]
  | some json =>
    (formatJsonArraysInline nt json 4).map fun pretty =>
      [['-', '-', '-'], pretty, ['-', '-', '-', '\n']]

end FastDdsSpy
