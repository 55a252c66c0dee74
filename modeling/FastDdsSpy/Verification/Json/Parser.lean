import FastDdsSpy.Model.JsonFormat
import FastDdsSpy.Verification.Json.Strings

/-! # Rules of the parser

Each rule takes the parser over one part of a text: whitespace, a primitive, an array or an
object. `Reads text j` is what a rule establishes about the text of a value. -/

namespace FastDdsSpy.Json

variable {ν : Type*} {nt : NumberText ν}

/-! ## Tokens -/

theorem isWhitespace_iff {c : Char} :
    isWhitespace c = true ↔ c = ' ' ∨ c = '\t' ∨ c = '\n' ∨ c = '\r' := by
  simp [isWhitespace, or_assoc]

def Blank (text : Text) : Prop := ∀ c ∈ text, isWhitespace c

/-- The characters that `scan_number` reads on. -/
def continuesNumber (c : Char) : Bool :=
  c.isDigit || c = '.' || c = 'e' || c = 'E' || c = '+' || c = '-'

/-- A number before the text is complete. -/
def EndsNumber (text : Text) : Prop := ∀ c ∈ text.head?, continuesNumber c = false

/-- `dump` of a number is the text of a JSON number, which is read back where it ends. -/
structure ReadsNumbers (nt : NumberText ν) : Prop where
  starts (value : ν) : ∃ c rest, nt.dumpNumber value = c :: rest ∧ startsNumber c
  reads (value : ν) {rest : Text} (h : EndsNumber rest) :
    nt.scanNumber (nt.dumpNumber value ++ rest) = some (value, rest)

theorem endsNumber_nil : EndsNumber [] := by simp [EndsNumber]

theorem endsNumber_cons {c : Char} (text : Text) (h : continuesNumber c = false) :
    EndsNumber (c :: text) := by
  simpa [EndsNumber] using h

theorem endsNumber_blank {ws : Text} {c : Char} (hws : Blank ws) (text : Text)
    (h : continuesNumber c = false) : EndsNumber (ws ++ c :: text) := by
  cases ws with
  | nil => exact endsNumber_cons text h
  | cons w ws =>
      have hw := hws w List.mem_cons_self
      refine endsNumber_cons _ ?_
      rcases isWhitespace_iff.mp hw with rfl | rfl | rfl | rfl
      all_goals decide

theorem endsNumber_flatMap {α : Type*} (f : α → Text) (xs : List α) {text : Text}
    (h : EndsNumber text) : EndsNumber (xs.flatMap (fun x => ',' :: f x) ++ text) := by
  cases xs with
  | nil => exact h
  | cons x xs => exact endsNumber_cons _ rfl

theorem skipWhitespace_text (text : Text) : skipWhitespace text = text.dropWhile isWhitespace :=
  rfl

theorem scan_blank {ws : Text} (hws : Blank ws) (text : Text) :
    scan nt.scanner (ws ++ text) = scan nt.scanner text := by
  simp only [scan, skipWhitespace_text, List.dropWhile_append_of_pos hws]

theorem getToken_blank {ws : Text} (hws : Blank ws) (text : Text) (stack : List (Frame ν)) :
    getToken nt.scanner (ws ++ text) stack = getToken nt.scanner text stack := by
  simp only [getToken, scan_blank hws]

theorem scan_of_not_whitespace {c : Char} (h : isWhitespace c = false) (text : Text) :
    scan nt.scanner (c :: text) = scanToken nt.scanner (c :: text) := by
  simp [scan, skipWhitespace_text, h]

theorem isWhitespace_of_startsNumber {c : Char} (h : startsNumber c) : isWhitespace c = false := by
  by_contra hw
  rcases isWhitespace_iff.mp (Bool.eq_true_of_not_eq_false hw) with rfl | rfl | rfl | rfl
  all_goals simp [startsNumber] at h

/-- The literals of the `switch`. -/
def literals : List Text := [['t', 'r', 'u', 'e'], ['f', 'a', 'l', 's', 'e'], ['n', 'u', 'l', 'l']]

/-- The labels of the `switch` for one character. -/
def switchLabels : List Char := ['[', ']', '{', '}', ':', ',', 't', 'f', 'n', '"', '\x00']

theorem scanToken_default {σ χ : Type} [TextUnit χ] (sc : Scanner ν σ χ) {current : χ}
    (h : TextUnit.charOf current ∉ switchLabels) (rest : List χ) :
    scanToken sc (current :: rest) =
      if startsNumber (TextUnit.charOf current) then
        valueToken .number (sc.scanNumber (current :: rest))
      else (.parseError, []) := by
  rw [scanToken]
  split
  case h_12 => rfl
  all_goals
    next heq =>
      rw [heq] at h
      exact absurd (by decide) h

theorem scanToken_number {c : Char} (h : startsNumber c) (text : Text) :
    scanToken nt.scanner (c :: text) = valueToken .number (nt.scanNumber (c :: text)) := by
  have hlabel : c ∉ switchLabels := by
    intro hmem
    simp only [switchLabels, List.mem_cons, List.not_mem_nil, or_false] at hmem
    rcases hmem with rfl | rfl | rfl | rfl | rfl | rfl | rfl | rfl | rfl | rfl | rfl
    all_goals simp [startsNumber] at h
  exact (scanToken_default nt.scanner hlabel text).trans (if_pos h)

theorem scanToken_quote (text : Text) :
    scanToken nt.scanner ('"' :: text) = valueToken .string (scanString ('"' :: text)) :=
  rfl

theorem scan_dumpString (s : String) (rest : Text) :
    scan nt.scanner (dumpString s ++ rest) = (.value (.string s), rest) := by
  have hread := scanString_dumpString s rest
  simp only [dumpString, List.append_assoc, List.cons_append, List.nil_append] at hread ⊢
  rw [scan_of_not_whitespace rfl, scanToken_quote, hread]
  rfl

theorem scan_dump (hnt : ReadsNumbers nt) (value : Primitive ν) {rest : Text}
    (h : EndsNumber rest) : scan nt.scanner (dump nt value ++ rest) = (.value value, rest) := by
  cases value with
  | null => simp [dump, scan_of_not_whitespace, isWhitespace, scanToken, scanLiteral]
  | boolean b =>
      cases b
      all_goals simp [dump, scan_of_not_whitespace, isWhitespace, scanToken, scanLiteral]
  | number n =>
      obtain ⟨c, digits, hdump, hstart⟩ := hnt.starts n
      have hread := hnt.reads n h
      simp only [dump, hdump, List.cons_append] at hread ⊢
      rw [scan_of_not_whitespace, scanToken_number hstart, hread]
      · rfl
      · exact isWhitespace_of_startsNumber hstart
  | string s => exact scan_dumpString s rest

/-! ## Iterations -/

theorem exec_def {σ χ : Type} [LinearOrder σ] [TextUnit χ] {sc : Scanner ν σ χ}
    (s : ParserState ν σ χ) :
    exec sc s =
      match step sc s with
      | .next t => exec sc t
      | .done value input => some (value, input)
      | .error => none := by
  rw [exec]
  split
  all_goals simp [*]

/-- The text is read as the value, whatever is open around it. -/
def Reads (nt : NumberText ν) (text : Text) (j : Json ν) : Prop :=
  ∀ tail stack, EndsNumber tail →
    exec nt.scanner (getToken nt.scanner (text ++ tail) stack) =
      exec nt.scanner ⟨.value j, tail, stack⟩

theorem reads_primitive (hnt : ReadsNumbers nt) (value : Primitive ν) :
    Reads nt (dump nt value) (.primitive value) := by
  intro tail stack htail
  rw [getToken, scan_dump hnt value htail, exec_def, exec_def ⟨.value _, tail, stack⟩]
  rfl

theorem exec_value (j : Json ν) (tail : Text) :
    exec nt.scanner ⟨.value j, tail, []⟩ = some (j, tail) := by
  rw [exec_def]
  rfl

/-- A text that is read as a value does not start with a closing bracket. -/
theorem Reads.ne_endArray {text tail : Text} {j : Json ν} (h : Reads nt text j)
    (htail : EndsNumber tail) : (scan nt.scanner (text ++ tail)).1 ≠ .endArray := by
  intro hscan
  have hread := h tail [] htail
  rw [exec_value, exec_def, getToken, hscan] at hread
  simp [step] at hread

/-- Nor does it start with a byte order mark. -/
theorem Reads.skipBom_eq {text : Text} {j : Json ν} (h : Reads nt text j) :
    skipBom text = text := by
  unfold skipBom
  split
  · next rest =>
      have hscan : (scan nt.scanner ('\uFEFF' :: rest ++ [])).1 = .parseError := rfl
      have hread := h [] [] endsNumber_nil
      rw [exec_value, exec_def, getToken, hscan] at hread
      simp [step] at hread
  · rfl

theorem Reads.blank {ws text : Text} {j : Json ν} (h : Reads nt text j) (hws : Blank ws) :
    Reads nt (ws ++ text) j := by
  intro tail stack htail
  rw [List.append_assoc, getToken_blank hws]
  exact h tail stack htail

/-! ## Arrays -/

section Arrays

variable {values : List (Json ν)} {v w : Json ν} {text tail closing : Text}
  {stack : List (Frame ν)}

theorem exec_open_array (h : (scan nt.scanner text).1 ≠ .endArray) :
    exec nt.scanner (getToken nt.scanner ('[' :: text) stack) =
      exec nt.scanner (getToken nt.scanner text (.array [] :: stack)) := by
  have hscan : scan nt.scanner ('[' :: text) = (.beginArray, text) := rfl
  rw [exec_def]
  simp only [getToken, hscan, step]

theorem exec_next_element (h : Reads nt text w) (htail : EndsNumber tail) :
    exec nt.scanner ⟨.value v, ',' :: (text ++ tail), .array values :: stack⟩ =
      exec nt.scanner ⟨.value w, tail, .array (values ++ [v]) :: stack⟩ := by
  have hscan (rest : Text) : scan nt.scanner (',' :: rest) = (.valueSeparator, rest) := rfl
  rw [exec_def]
  simp only [step, evaluate, hscan]
  exact h tail _ htail

theorem exec_close_array (hclosing : Blank closing) :
    exec nt.scanner ⟨.value v, closing ++ ']' :: tail, .array values :: stack⟩ =
      exec nt.scanner ⟨.value (.array (values ++ [v])), tail, stack⟩ := by
  have hscan : scan nt.scanner (']' :: tail) = (.endArray, tail) := rfl
  rw [exec_def]
  simp only [step, evaluate, scan_blank hclosing, hscan]

/-- The elements after `v`, each written by `render` after a comma. -/
theorem exec_elements (hclosing : Blank closing) {render : Json ν → Text}
    {rest : List (Json ν)} (h : ∀ w ∈ rest, Reads nt (render w) w) :
    exec nt.scanner ⟨.value v, rest.flatMap (fun w => ',' :: render w) ++ (closing ++ ']' :: tail),
        .array values :: stack⟩ =
      exec nt.scanner ⟨.value (.array (values ++ v :: rest)), tail, stack⟩ := by
  induction rest generalizing values v with
  | nil => exact exec_close_array hclosing
  | cons w rest ih =>
      obtain ⟨hw, hrest⟩ := List.forall_mem_cons.mp h
      have hend := endsNumber_flatMap render rest (endsNumber_blank hclosing tail (c := ']') rfl)
      simp only [List.flatMap_cons, List.cons_append, List.append_assoc]
      rw [exec_next_element hw hend, ih hrest, List.append_assoc, List.singleton_append]

theorem reads_array_nil : Reads nt ['[', ']'] (.array []) := by
  intro tail stack _
  rw [exec_def, exec_def ⟨.value _, tail, stack⟩]
  rfl

theorem reads_array_cons (render : Json ν → Text) {rest : List (Json ν)}
    (hv : Reads nt text v) (h : ∀ w ∈ rest, Reads nt (render w) w) (hclosing : Blank closing) :
    Reads nt ('[' :: (text ++ (rest.flatMap (fun w => ',' :: render w) ++ (closing ++ [']']))))
      (.array (v :: rest)) := by
  intro tail stack _
  have hend := endsNumber_flatMap render rest (endsNumber_blank hclosing tail (c := ']') rfl)
  simp only [List.cons_append, List.append_assoc, List.nil_append]
  rw [exec_open_array (hv.ne_endArray hend), hv _ _ hend, exec_elements hclosing h,
    List.nil_append]

end Arrays

/-! ## Objects -/

section Objects

open OrderedPairs

variable {ws : Text} {members : List (String × Json ν)} {key : String} {v w : Json ν}
  {text tail closing : Text} {stack : List (Frame ν)}

theorem scan_key (hws : Blank ws) (key : String) (text : Text) :
    objectKey nt.scanner (scan nt.scanner (ws ++ (dumpString key ++ ':' :: text))) =
      some (key, text) := by
  have hscan : scan nt.scanner (':' :: text) = (.nameSeparator, text) := rfl
  simp only [scan_blank hws, scan_dumpString, objectKey, hscan]

theorem exec_open_object (hws : Blank ws) (key : String) (text : Text) :
    exec nt.scanner (getToken nt.scanner ('{' :: (ws ++ (dumpString key ++ ':' :: text))) stack) =
      exec nt.scanner (getToken nt.scanner text (.object [] key :: stack)) := by
  have hopen (rest : Text) : scan nt.scanner ('{' :: rest) = (.beginObject, rest) := rfl
  have hcolon : scan nt.scanner (':' :: text) = (.nameSeparator, text) := rfl
  rw [exec_def]
  simp only [getToken, step, hopen, scan_blank hws, scan_dumpString, objectKey, hcolon]

theorem exec_next_member (hws : Blank ws) (next : String) (h : Reads nt text w)
    (htail : EndsNumber tail) :
    exec nt.scanner ⟨.value v, ',' :: (ws ++ (dumpString next ++ ':' :: (text ++ tail))),
        .object members key :: stack⟩ =
      exec nt.scanner ⟨.value w, tail, .object (assign key v members) next :: stack⟩ := by
  have hscan (rest : Text) : scan nt.scanner (',' :: rest) = (.valueSeparator, rest) := rfl
  rw [exec_def]
  simp only [step, evaluate, hscan, scan_key hws]
  exact h tail _ htail

theorem exec_close_object (hclosing : Blank closing) :
    exec nt.scanner ⟨.value v, closing ++ '}' :: tail, .object members key :: stack⟩ =
      exec nt.scanner ⟨.value (.object (assign key v members)), tail, stack⟩ := by
  have hscan : scan nt.scanner ('}' :: tail) = (.endObject, tail) := rfl
  rw [exec_def]
  simp only [step, evaluate, scan_blank hclosing, hscan]

/-- A member as it is written after a comma or the brace. -/
def memberText (ws : Text) (render : Json ν → Text) (m : String × Json ν) : Text :=
  ws ++ (dumpString m.1 ++ ':' :: render m.2)

theorem memberText_append (ws : Text) (render : Json ν → Text) (m : String × Json ν)
    (text : Text) :
    memberText ws render m ++ text = ws ++ (dumpString m.1 ++ ':' :: (render m.2 ++ text)) := by
  simp [memberText]

/-- The members after the one with the value `v`, which come in the order of their keys. -/
theorem exec_members (hws : Blank ws) (hclosing : Blank closing) {render : Json ν → Text}
    {rest : List (String × Json ν)} (hsorted : Sorted (members ++ (key, v) :: rest))
    (h : ∀ m ∈ rest, Reads nt (render m.2) m.2) :
    exec nt.scanner ⟨.value v,
        rest.flatMap (fun m => ',' :: memberText ws render m) ++ (closing ++ '}' :: tail),
        .object members key :: stack⟩ =
      exec nt.scanner ⟨.value (.object (members ++ (key, v) :: rest)), tail, stack⟩ := by
  induction rest generalizing members key v with
  | nil => rw [List.flatMap_nil, List.nil_append, exec_close_object hclosing,
      hsorted.assign_eq_append]
  | cons m rest ih =>
      obtain ⟨hm, hrest⟩ := List.forall_mem_cons.mp h
      have hend := endsNumber_flatMap (memberText ws render) rest
        (endsNumber_blank hclosing tail (c := '}') rfl)
      have happend : members ++ (key, v) :: m :: rest = members ++ [(key, v)] ++ m :: rest := by
        simp
      simp only [List.flatMap_cons, List.cons_append, List.append_assoc, memberText_append]
      rw [exec_next_member hws m.1 hm hend, hsorted.assign_eq_append, happend]
      exact ih (happend ▸ hsorted) hrest

theorem reads_object_nil (hclosing : Blank closing) :
    Reads nt ('{' :: (closing ++ ['}'])) (.object []) := by
  intro tail stack _
  have hopen (text : Text) : scan nt.scanner ('{' :: text) = (.beginObject, text) := rfl
  have hclose : scan nt.scanner ('}' :: tail) = (.endObject, tail) := rfl
  simp only [List.cons_append, List.append_assoc, List.nil_append]
  rw [exec_def, exec_def ⟨.value _, tail, stack⟩]
  simp only [getToken, hopen, step, scan_blank hclosing, hclose]

theorem reads_object_cons (render : Json ν → Text) {m : String × Json ν}
    {rest : List (String × Json ν)} (hws : Blank ws) (hclosing : Blank closing)
    (hsorted : Sorted (m :: rest)) (h : ∀ n ∈ m :: rest, Reads nt (render n.2) n.2) :
    Reads nt ('{' :: (memberText ws render m ++
        (rest.flatMap (fun n => ',' :: memberText ws render n) ++ (closing ++ ['}']))))
      (.object (m :: rest)) := by
  intro tail stack _
  obtain ⟨hm, hrest⟩ := List.forall_mem_cons.mp h
  have hend := endsNumber_flatMap (memberText ws render) rest
    (endsNumber_blank hclosing tail (c := '}') rfl)
  simp only [List.cons_append, List.append_assoc, List.nil_append, memberText_append]
  rw [exec_open_object hws, hm _ _ hend]
  exact exec_members hws hclosing hsorted hrest

end Objects

end FastDdsSpy.Json
