import FastDdsSpy.Verification.Instances
import FastDdsSpy.Verification.Json.Ordered
import FastDdsSpy.Verification.Json.Parser

/-! # The displayed text is the value

The printer writes texts that the rules of the parser read back. -/

namespace FastDdsSpy

open Json

variable {ν : Type*} {nt : NumberText ν}

theorem blank_nil : Blank [] := by simp [Blank]

theorem blank_spaces (n : ℕ) : Blank (spaces n) := by
  intro c hc
  rw [spaces, ascii_char] at hc
  rw [List.eq_of_mem_replicate hc]
  rfl

theorem blank_newline (n : ℕ) : Blank ('\n' :: spaces n) :=
  List.forall_mem_cons.mpr ⟨rfl, blank_spaces n⟩

theorem blank_space : Blank [' '] := blank_spaces 1

/-! ## The printer -/

theorem dump_string (s : String) : dump nt (.string s) = dumpString s := rfl

theorem printPrimitives_eq (values : List (Primitive ν)) :
    (printPrimitives (fun value => (pure (dump nt value) : Id Text)) values).run =
      values.flatMap fun value => ',' :: ([' '] ++ dump nt value) := by
  induction values with
  | nil => rfl
  | cons value rest ih => simp [printPrimitives, ih]

theorem printElements_eq (values : List (Json ν)) (indent step : ℕ) :
    (printElements (fun value => (pure (dump nt value) : Id Text)) values indent step).run =
      values.flatMap fun value =>
        ',' :: ('\n' :: spaces indent ++ printJsonArraysInline nt value indent step) := by
  induction values with
  | nil => rfl
  | cons value rest ih => simp [printElements, printJsonArraysInline, ih]

theorem printMembers_eq (members : List (String × Json ν)) (indent step : ℕ) :
    (printMembers (fun value => (pure (dump nt value) : Id Text)) members indent step).run =
      members.flatMap fun m => ',' :: memberText ('\n' :: spaces indent)
        (fun value => [' '] ++ printJsonArraysInline nt value indent step) m := by
  induction members with
  | nil => rfl
  | cons m rest ih => simp [printMembers, printJsonArraysInline, memberText, dump_string, ih]

theorem print_primitive (value : Primitive ν) (indent step : ℕ) :
    printJsonArraysInline nt (.primitive value) indent step = dump nt value :=
  rfl

/-- An array of primitives. -/
theorem print_inline {values : List (Json ν)} {value : Primitive ν} {rest : List (Primitive ν)}
    (h : values.mapM primitive? = some (value :: rest)) (indent step : ℕ) :
    printJsonArraysInline nt (.array values) indent step =
      '[' :: (dump nt value ++ rest.flatMap (fun v => ',' :: ([' '] ++ dump nt v)) ++ [']']) := by
  rw [printJsonArraysInline, print.eq_def]
  simp [h, printPrimitives_eq]

theorem print_array {value : Json ν} {rest : List (Json ν)}
    (h : (value :: rest).mapM primitive? = none) (indent step : ℕ) :
    printJsonArraysInline nt (.array (value :: rest)) indent step =
      '[' :: ('\n' :: spaces (indent + step) ++
        printJsonArraysInline nt value (indent + step) step ++
        rest.flatMap (fun w => ',' :: ('\n' :: spaces (indent + step) ++
          printJsonArraysInline nt w (indent + step) step)) ++
        '\n' :: (spaces indent ++ [']'])) := by
  rw [printJsonArraysInline, print, h]
  simp [printElements_eq, ← printJsonArraysInline.eq_def]

theorem print_object (m : String × Json ν) (rest : List (String × Json ν)) (indent step : ℕ) :
    printJsonArraysInline nt (.object (m :: rest)) indent step =
      '{' :: (memberText ('\n' :: spaces (indent + step))
          (fun value => [' '] ++ printJsonArraysInline nt value (indent + step) step) m ++
        rest.flatMap (fun n => ',' :: memberText ('\n' :: spaces (indent + step))
          (fun value => [' '] ++ printJsonArraysInline nt value (indent + step) step) n) ++
        '\n' :: (spaces indent ++ ['}'])) := by
  rw [printJsonArraysInline, print]
  simp [printMembers_eq, dump_string, memberText, ← printJsonArraysInline.eq_def]

theorem eq_map_of_mapM_primitive? {values : List (Json ν)} {primitives : List (Primitive ν)}
    (h : values.mapM primitive? = some primitives) : values = primitives.map .primitive := by
  induction values generalizing primitives with
  | nil =>
      cases h
      rfl
  | cons value rest ih =>
      cases value with
      | primitive value =>
          obtain ⟨others, hrest, rfl⟩ : ∃ others, rest.mapM primitive? = some others ∧
              value :: others = primitives := by
            simpa [primitive?, Option.bind_eq_some_iff] using h
          rw [ih hrest, List.map_cons]
      | array => simp [primitive?] at h
      | object => simp [primitive?] at h

theorem reads_print (hnt : ReadsNumbers nt) {j : Json ν} (h : j.Ordered) (indent step : ℕ) :
    Reads nt (printJsonArraysInline nt j indent step) j := by
  induction h generalizing indent with
  | primitive value => exact reads_primitive hnt value
  | @array values _ ih =>
      cases hprimitives : values.mapM primitive? with
      | some primitives =>
          -- the elements on one line
          obtain rfl := eq_map_of_mapM_primitive? hprimitives
          cases primitives with
          | nil => exact reads_array_nil
          | cons value rest =>
              have hrest (w : Json ν) (hw : w ∈ rest.map .primitive) :
                  Reads nt ([' '] ++ printJsonArraysInline nt w indent step) w := by
                obtain ⟨v, _, rfl⟩ := List.mem_map.mp hw
                exact (reads_primitive hnt v).blank blank_space
              have hread := reads_array_cons _ (reads_primitive hnt value) hrest blank_nil
              rw [List.map_cons] at hprimitives
              simpa [List.flatMap_map, print_primitive, print_inline hprimitives] using hread
      | none =>
          cases values with
          | nil => simp at hprimitives
          | cons value rest =>
              have hall (w : Json ν) (hw : w ∈ value :: rest) :=
                (ih w hw (indent + step)).blank (blank_newline (indent + step))
              obtain ⟨hvalue, hrest⟩ := List.forall_mem_cons.mp hall
              have hread := reads_array_cons _ hvalue hrest (blank_newline indent)
              simpa [print_array hprimitives] using hread
  | @object members hsorted _ ih =>
      cases members with
      | nil => exact reads_object_nil (List.forall_mem_cons.mpr ⟨rfl, blank_newline indent⟩)
      | cons m rest =>
          have hmembers (n : String × Json ν) (hn : n ∈ m :: rest) :=
            (ih n hn (indent + step)).blank blank_space
          have hread := reads_object_cons
            (fun value => [' '] ++ printJsonArraysInline nt value (indent + step) step)
            (blank_newline (indent + step)) (blank_newline indent) hsorted hmembers
          simpa [print_object, memberText] using hread

/-! ## Whole texts -/

/-- The text of a value, alone in its document. -/
theorem parse_of_reads {text : Text} {j : Json ν} (h : Reads nt text j) :
    parse nt text = some j := by
  have hread := h [] [] endsNumber_nil
  rw [List.append_nil, exec_value] at hread
  rw [parse, h.skipBom_eq, parseFrom, hread]
  rfl

theorem parse_format (hnt : ReadsNumbers nt) {text : Text} {j : Json ν}
    (h : parse nt text = some j) (indentStep : ℕ) :
    ∃ formatted, formatJsonArraysInline nt text indentStep = some formatted ∧
      parse nt formatted = some j := by
  refine ⟨printJsonArraysInline nt j 0 indentStep, ?_, ?_⟩
  · rw [formatJsonArraysInline, h, Option.map_some]
  · exact parse_of_reads (reads_print hnt (parse_ordered h) 0 indentStep)

/-- Display preserves the data: the printer writes every value as a text of this value, the
formatter gives a valid document another text of its value, and this is what is shown for a
sample. -/
theorem display_preserves (hnt : ReadsNumbers nt) :
    (∀ (j : {j : Json ν // j.Ordered}) (indent step : ℕ),
      parse nt (printJsonArraysInline nt j.1 indent step) = some j.1) ∧
    (∀ text j, parse nt text = some j → ∀ indentStep,
      ∃ formatted, formatJsonArraysInline nt text indentStep = some formatted ∧
        parse nt formatted = some j) ∧
    ∀ json j, parse nt json = some j →
      ∃ pretty, dataStreamCallback nt (some json) =
          some [['-', '-', '-'], pretty, ['-', '-', '-', '\n']] ∧
        parse nt pretty = some j := by
  refine ⟨?_, fun text j h indentStep => parse_format hnt h indentStep, ?_⟩
  · intro j indent step
    exact parse_of_reads (reads_print hnt j.2 indent step)
  · intro json j h
    obtain ⟨pretty, hformat, hparse⟩ := parse_format hnt h 4
    refine ⟨pretty, ?_, hparse⟩
    rw [dataStreamCallback, hformat, Option.map_some]

theorem readsNumbers_decimals : ReadsNumbers decimals where
  starts value := by
    have hne : Nat.toDigits 10 value ≠ [] := Nat.toDigits_ne_nil
    obtain ⟨c, rest, hdigits⟩ := List.exists_cons_of_ne_nil hne
    have hmem : c ∈ Nat.toDigits 10 value := hdigits ▸ List.mem_cons_self
    have hdigit := Nat.isDigit_of_mem_toDigits (by decide) (by decide) hmem
    exact ⟨c, rest, hdigits, by simp [startsNumber, hdigit]⟩
  reads value rest h := by
    have hdigits : ∀ c ∈ Nat.toDigits 10 value, c.isDigit := by
      intro c hc
      exact Nat.isDigit_of_mem_toDigits (by decide) (by decide) hc
    have hrest : rest.takeWhile Char.isDigit = [] ∧ rest.dropWhile Char.isDigit = rest := by
      cases rest with
      | nil => exact ⟨rfl, rfl⟩
      | cons c rest =>
          have hc : c.isDigit = false := by
            have hc : continuesNumber c = false := h c rfl
            simp only [continuesNumber, Bool.or_eq_false_iff] at hc
            tauto
          simp [hc]
    have hne : Nat.toDigits 10 value ≠ [] := Nat.toDigits_ne_nil
    simp only [decimals, List.takeWhile_append_of_pos hdigits, hrest, List.append_nil,
      List.dropWhile_append_of_pos hdigits]
    split
    · next hnil => exact absurd hnil hne
    · next hcons => rw [← hcons, Nat.ofDigitChars_ten_toDigits]

/-- An object with a number and an array that is not written on one line. -/
def sampleData : Json ℕ :=
  .object [("id", .primitive (.number 7)), ("path", .array [.array [], .primitive .null])]

theorem sampleData_ordered : sampleData.Ordered := by
  have hpath : (Json.array [.array [], .primitive (.null : Primitive ℕ)]).Ordered :=
    .array (by simp [Ordered.array, Ordered.primitive])
  refine .object (List.pairwise_pair.mpr (by decide)) ?_
  simp [hpath, Ordered.primitive]

example : printJsonArraysInline decimals sampleData 0 2 =
    "\x7b\n  \"id\": 7,\n  \"path\": [\n    [],\n    null\n  ]\n\x7d".toList := by rfl

theorem display_preserves_sample :
    parse decimals (printJsonArraysInline decimals sampleData 0 2) = some sampleData :=
  (display_preserves readsNumbers_decimals).1 ⟨sampleData, sampleData_ordered⟩ 0 2

end FastDdsSpy
