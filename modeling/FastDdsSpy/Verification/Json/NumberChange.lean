import FastDdsSpy.Verification.Json.PrintSimulation

/-! # Change of the number type

A parser whose scanner reads more numbers reads the same values, with its own numbers in
them; a printer that writes the same numbers writes the same text. -/

namespace FastDdsSpy.Json

variable {μ ν : Type*} {f : μ → ν} {p : NumberText μ} {q : NumberText ν}

/-- Every number that the first scanner reads is read by the second one. -/
def ScansMore (f : μ → ν) (p : NumberText μ) (q : NumberText ν) : Prop :=
  ∀ text value rest, p.scanNumber text = some (value, rest) →
    q.scanNumber text = some (f value, rest)

/-- The same texts, with other numbers in them: the second lexer can read on where the first
one fails. -/
def numbers (f : μ → ν) : Representation μ ν String String Char Char where
  number := f
  string := id
  input := id
  Ends last last' := last = .parseError ∧ last' ≠ .endArray

theorem numbers_failed (f : μ → ν) {last : Token ν} (h : last ≠ .endArray) (input input' : Text) :
    (numbers f).ScanFollows (.parseError, input) (last, input') :=
  have hends : (numbers f).Ends .parseError last := ⟨rfl, h⟩
  .ended hends input input'

theorem scanLiteral_numbers (f : μ → ν) (literal : Text) (value : Primitive μ) (text : Text) :
    (numbers f).ScanFollows (scanLiteral literal value text)
      (scanLiteral literal (value.map f id) text) := by
  unfold scanLiteral
  split
  · exact .token (.value value) _
  · exact numbers_failed f (by simp) [] []

theorem scanString_numbers (f : μ → ν) (result : Option (String × Text)) :
    (numbers f).ScanFollows (valueToken .string result) (valueToken .string result) := by
  cases result with
  | none => exact numbers_failed f (by simp) [] []
  | some r => exact .token (.value (.string r.1)) r.2

theorem scanNumber_numbers (hpq : ScansMore f p q) (text : Text) :
    (numbers f).ScanFollows (valueToken .number (p.scanNumber text))
      (valueToken .number (q.scanNumber text)) := by
  cases hscan : p.scanNumber text with
  | some r =>
      rw [hpq _ _ _ hscan]
      exact .token (.value (.number r.1)) r.2
  | none => cases q.scanNumber text <;> exact numbers_failed f (by simp) [] _

theorem scan_numbers (hpq : ScansMore f p q) (text : Text) :
    (numbers f).ScanFollows (scan p.scanner text) (scan q.scanner text) := by
  unfold scan
  cases skipWhitespace text with
  | nil => exact .token .endOfInput []
  | cons c rest =>
      exact (numbers f).scanToken_follows rfl
        (fun literal _ value => scanLiteral_numbers f literal value (c :: rest))
        (scanString_numbers f _) (scanNumber_numbers hpq (c :: rest)) ⟨rfl, by simp⟩

theorem simulates_numbers (hpq : ScansMore f p q) :
    (numbers f).Simulates p.scanner q.scanner where
  strictMono := strictMono_id
  stops h := .inr h.1
  ne_endArray h := h.2
  scan := scan_numbers hpq

/-- A text that the first parser accepts is a text of the same value for the second one. -/
theorem parse_map (hpq : ScansMore f p q) {text : Text} {j : Json μ} (h : parse p text = some j) :
    parse q text = some (Json.map f id j) :=
  Representation.parseFrom_follows (simulates_numbers hpq) (fun _ hend => by cases hend.1) h

theorem map_map {κ : Type*} (g : ν → κ) {j : Json μ} (h : j.Ordered) :
    Json.map g id (Json.map f id j) = Json.map (fun value => g (f value)) id j := by
  induction h with
  | primitive value => cases value <;> rfl
  | array _ ih =>
      simp only [map_array, List.map_map, Json.array.injEq]
      exact List.map_congr_left ih
  | object _ _ ih =>
      simp only [map_object, List.map_map, Json.object.injEq]
      exact List.map_congr_left fun m hm => congrArg (m.1, ·) (ih m hm)

theorem Ordered.map (f : μ → ν) {j : Json μ} (h : j.Ordered) : (Json.map f id j).Ordered := by
  induction h with
  | primitive value => exact .primitive _
  | array _ ih =>
      rw [map_array]
      refine .array fun v hv => ?_
      obtain ⟨w, hw, rfl⟩ := List.mem_map.mp hv
      exact ih w hw
  | object hsorted _ ih =>
      rw [map_object]
      refine .object (hsorted.map _) fun m hm => ?_
      obtain ⟨n, hn, rfl⟩ := List.mem_map.mp hm
      exact ih n hn

/-! ## The printer -/

theorem encodes_id : Encodes (id : Text → Text) where
  append _ _ := rfl
  ascii _ _ := rfl

theorem dump_map (hdump : ∀ value, q.dumpNumber (f value) = p.dumpNumber value)
    (value : Primitive μ) :
    dump q (value.map f id) = dump p value := by
  cases value with
  | number value => exact hdump value
  | null => rfl
  | boolean value => cases value <;> rfl
  | string value => rfl

theorem printJsonArraysInline_map
    (hdump : ∀ value, q.dumpNumber (f value) = p.dumpNumber value) (j : Json μ)
    (indent step : ℕ) :
    printJsonArraysInline q (Json.map f id j) indent step = printJsonArraysInline p j indent step :=
  print_map encodes_id (fun value => congrArg pure (dump_map hdump value)) j indent step

end FastDdsSpy.Json
