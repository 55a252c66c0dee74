import FastDdsSpy.Verification.Json.Numbers
import FastDdsSpy.Verification.Json.StringGrammar

/-! # The documents that the parser accepts

The grammar of JSON as relations between a text, a value at its start and the text after it.
The parser reads exactly the documents of the grammar, up to a null character. -/

namespace FastDdsSpy.Json

open OrderedPairs

variable {φ : Type*} {ft : FloatText φ}

/-! ## The grammar -/

/-- The members of an object in the order of the text: for a repeated key the last counts. -/
def assignAll {ν : Type*} (ms members : List (String × Json ν)) : List (String × Json ν) :=
  ms.foldl (fun members m => assign m.1 m.2 members) members

mutual

/-- A value at the start of a text, and the text after it. -/
inductive ValueText (ft : FloatText φ) : Text → Json (JsonNumber φ) → Text → Prop
  | null {r} : ValueText ft ('n' :: 'u' :: 'l' :: 'l' :: r) (.primitive .null) r
  | true {r} : ValueText ft ('t' :: 'r' :: 'u' :: 'e' :: r) (.primitive (.boolean true)) r
  | false {r} :
      ValueText ft ('f' :: 'a' :: 'l' :: 's' :: 'e' :: r) (.primitive (.boolean false)) r
  | number {l : NumberLiteral} {value r} (h : literalNumber ft l = some value) :
      ValueText ft (l.text ++ r) (.primitive (.number value)) r
  | string {body value r} (h : StringText body value) :
      ValueText ft ('"' :: (body ++ '"' :: r)) (.primitive (.string (.ofList value))) r
  | emptyArray {ws r} (h : Blank ws) : ValueText ft ('[' :: (ws ++ ']' :: r)) (.array []) r
  | array {t values r} (h : ElementsText ft t values r) : ValueText ft ('[' :: t) (.array values) r
  | emptyObject {ws r} (h : Blank ws) : ValueText ft ('{' :: (ws ++ '}' :: r)) (.object []) r
  | object {t members r} (h : MembersText ft t members r) :
      ValueText ft ('{' :: t) (.object (assignAll members [])) r

/-- Elements up to the bracket that closes the array. -/
inductive ElementsText (ft : FloatText φ) : Text → List (Json (JsonNumber φ)) → Text → Prop
  | last {ws t v ws' r} (hws : Blank ws) (hv : ValueText ft t v (ws' ++ ']' :: r))
      (hws' : Blank ws') : ElementsText ft (ws ++ t) [v] r
  | more {ws t v ws' u values r} (hws : Blank ws) (hv : ValueText ft t v (ws' ++ ',' :: u))
      (hws' : Blank ws') (h : ElementsText ft u values r) :
      ElementsText ft (ws ++ t) (v :: values) r

/-- Members up to the brace that closes the object. -/
inductive MembersText (ft : FloatText φ) :
    Text → List (String × Json (JsonNumber φ)) → Text → Prop
  | last {t key v ws r} (h : MemberText ft t key v (ws ++ '}' :: r)) (hws : Blank ws) :
      MembersText ft t [(key, v)] r
  | more {t key v ws u members r} (h : MemberText ft t key v (ws ++ ',' :: u)) (hws : Blank ws)
      (hmembers : MembersText ft u members r) : MembersText ft t ((key, v) :: members) r

inductive MemberText (ft : FloatText φ) : Text → String → Json (JsonNumber φ) → Text → Prop
  | intro {ws body key ws₂ ws₃ t v r} (hws : Blank ws) (hkey : StringText body key)
      (hws₂ : Blank ws₂) (hws₃ : Blank ws₃) (hv : ValueText ft t v r) :
      MemberText ft (ws ++ '"' :: (body ++ '"' :: (ws₂ ++ ':' :: (ws₃ ++ t)))) (.ofList key) v r

end

/-- Where the lexer sees the end of a text: it takes a null character for it. -/
def AtEnd (text : Text) : Prop := ∀ c ∈ text.head?, c = '\x00'

/-- A value between whitespace, perhaps after a byte order mark. -/
def DocumentText (ft : FloatText φ) (text : Text) (j : Json (JsonNumber φ)) : Prop :=
  ∃ ws t ws' rest, skipBom text = ws ++ t ∧ Blank ws ∧ ValueText ft t j (ws' ++ rest) ∧
    Blank ws' ∧ AtEnd rest

/-! ## Every document is read -/

/-- `exec` reads the value, whatever is open around it. -/
def Read (ft : FloatText φ) (text : Text) (v : Json (JsonNumber φ)) (rest : Text) : Prop :=
  ∀ stack, exec (jsonNumbers ft).scanner (getToken (jsonNumbers ft).scanner text stack) =
    exec (jsonNumbers ft).scanner ⟨.value v, rest, stack⟩

theorem read_primitive {text rest : Text} {value : Primitive (JsonNumber φ)}
    (h : scan (jsonNumbers ft).scanner text = (.value value, rest)) :
    Read ft text (.primitive value) rest := by
  intro stack
  rw [getToken, h, exec_def, exec_def ⟨.value _, rest, stack⟩]
  rfl

theorem scan_number {l : NumberLiteral} {value : JsonNumber φ} {rest : Text}
    (h : literalNumber ft l = some value) (hrest : l.EndsBefore rest) :
    scan (jsonNumbers ft).scanner (l.text ++ rest) = (.value (.number value), rest) := by
  obtain ⟨c, digits, htext, hstart⟩ := l.text_eq_cons
  have hstarts : startsNumber c = true := by simpa [startsNumber] using hstart
  have hread := scanNumber_literal ft l hrest
  rw [h, htext, List.cons_append, Option.map_some] at hread
  rw [htext, List.cons_append, scan_of_not_whitespace (isWhitespace_of_startsNumber hstarts),
    scanToken_number hstarts]
  exact congrArg (valueToken Primitive.number) hread

theorem scan_string {body value : Text} (h : StringText body value) (rest : Text) :
    scan (jsonNumbers ft).scanner ('"' :: (body ++ '"' :: rest)) =
      (.value (.string (.ofList value)), rest) := by
  rw [scan_of_not_whitespace rfl, scanToken_quote, scanString, scanCharacters_complete h]
  rfl

/-- A value does not start with a bracket that closes an array. -/
theorem Read.ne_endArray {text rest : Text} {v : Json (JsonNumber φ)} (h : Read ft text v rest) :
    (scan (jsonNumbers ft).scanner text).1 ≠ .endArray := by
  intro hscan
  have hread := h []
  rw [exec_value, exec_def, getToken, hscan] at hread
  simp [step] at hread

theorem endsNumber_char {ws rest : Text} {c : Char} (hws : Blank ws)
    (h : continuesNumber c = false) : EndsNumber (ws ++ c :: rest) :=
  endsNumber_blank hws rest h

/-- The key of a member, and what is read from its value on. -/
def ReadMember (ft : FloatText φ) (text : Text) (key : String) (v : Json (JsonNumber φ))
    (rest : Text) : Prop :=
  ∃ input, objectKey (jsonNumbers ft).scanner (scan (jsonNumbers ft).scanner text) =
    some (key, input) ∧ Read ft input v rest

theorem objectKey_string {body value ws text : Text} (h : StringText body value) (hws : Blank ws) :
    objectKey (jsonNumbers ft).scanner
        (scan (jsonNumbers ft).scanner ('"' :: (body ++ '"' :: (ws ++ ':' :: text)))) =
      some (.ofList value, text) := by
  have hcolon : scan (jsonNumbers ft).scanner (':' :: text) = (.nameSeparator, text) := rfl
  rw [scan_string h, objectKey, scan_blank hws, hcolon]

section Iterations

variable {ν : Type*} {nt : NumberText ν} {v : Json ν} {ws text : Text} {stack : List (Frame ν)}

theorem exec_array_separator (hws : Blank ws) (values : List (Json ν)) :
    exec nt.scanner ⟨.value v, ws ++ ',' :: text, .array values :: stack⟩ =
      exec nt.scanner (getToken nt.scanner text (.array (values ++ [v]) :: stack)) := by
  have hscan : scan nt.scanner (',' :: text) = (.valueSeparator, text) := rfl
  rw [exec_def]
  simp only [step, evaluate, scan_blank hws, hscan]

theorem exec_object_separator (hws : Blank ws) (members : List (String × Json ν))
    {key next : String} {input : Text}
    (h : objectKey nt.scanner (scan nt.scanner text) = some (next, input)) :
    exec nt.scanner ⟨.value v, ws ++ ',' :: text, .object members key :: stack⟩ =
      exec nt.scanner
        (getToken nt.scanner input (.object (assign key v members) next :: stack)) := by
  have hscan : scan nt.scanner (',' :: text) = (.valueSeparator, text) := rfl
  rw [exec_def]
  simp only [step, evaluate, scan_blank hws, hscan, h]

theorem exec_object {key : String} {input : Text}
    (h : objectKey nt.scanner (scan nt.scanner text) = some (key, input)) :
    exec nt.scanner (getToken nt.scanner ('{' :: text) stack) =
      exec nt.scanner (getToken nt.scanner input (.object [] key :: stack)) := by
  have hscan : scan nt.scanner ('{' :: text) = (.beginObject, text) := rfl
  have hstep : step nt.scanner (getToken nt.scanner ('{' :: text) stack) =
      .next (getToken nt.scanner input (.object [] key :: stack)) := by
    simp only [getToken, step, hscan]
    split
    · next hclose => simp [hclose, objectKey] at h
    · simp only [h]
  rw [exec_def, hstep]

theorem exec_empty_array (hws : Blank ws) :
    exec nt.scanner (getToken nt.scanner ('[' :: (ws ++ ']' :: text)) stack) =
      exec nt.scanner ⟨.value (.array []), text, stack⟩ := by
  have hopen : scan nt.scanner ('[' :: (ws ++ ']' :: text)) =
      (.beginArray, ws ++ ']' :: text) := rfl
  have hclose : scan nt.scanner (']' :: text) = (.endArray, text) := rfl
  rw [exec_def, exec_def ⟨.value _, text, stack⟩]
  simp only [getToken, hopen, step, scan_blank hws, hclose]

theorem exec_empty_object (hws : Blank ws) :
    exec nt.scanner (getToken nt.scanner ('{' :: (ws ++ '}' :: text)) stack) =
      exec nt.scanner ⟨.value (.object []), text, stack⟩ := by
  have hopen : scan nt.scanner ('{' :: (ws ++ '}' :: text)) =
      (.beginObject, ws ++ '}' :: text) := rfl
  have hclose : scan nt.scanner ('}' :: text) = (.endObject, text) := rfl
  rw [exec_def, exec_def ⟨.value _, text, stack⟩]
  simp only [getToken, hopen, step, scan_blank hws, hclose]

end Iterations

mutual

theorem ValueText.read {text rest : Text} {v : Json (JsonNumber φ)} (h : ValueText ft text v rest)
    (hrest : EndsNumber rest) : Read ft text v rest := by
  match h with
  | .null => exact read_primitive rfl
  | .true => exact read_primitive rfl
  | .false => exact read_primitive rfl
  | .number h => exact read_primitive (scan_number h (endsBefore_of_endsNumber hrest _))
  | .string h => exact read_primitive (scan_string h rest)
  | .emptyArray h => exact fun stack => exec_empty_array h
  | .array h =>
      intro stack
      have hread := h.read [] stack
      rw [exec_open_array hread.1, hread.2, List.nil_append]
  | .emptyObject h => exact fun stack => exec_empty_object h
  | .object h =>
      intro stack
      have hread := h.read
      obtain ⟨key, input, hkey, hread⟩ := hread
      rw [exec_object hkey, hread]
termination_by structural h

theorem ElementsText.read {text rest : Text} {values : List (Json (JsonNumber φ))}
    (h : ElementsText ft text values rest) (elements : List (Json (JsonNumber φ)))
    (stack : List (Frame (JsonNumber φ))) :
    (scan (jsonNumbers ft).scanner text).1 ≠ .endArray ∧
    exec (jsonNumbers ft).scanner
        (getToken (jsonNumbers ft).scanner text (.array elements :: stack)) =
      exec (jsonNumbers ft).scanner ⟨.value (.array (elements ++ values)), rest, stack⟩ := by
  match h with
  | .last hws hv hws' =>
      have hread := hv.read (endsNumber_char hws' rfl)
      rw [scan_blank hws, getToken_blank hws, hread, exec_close_array hws']
      exact ⟨hread.ne_endArray, rfl⟩
  | @ElementsText.more _ _ _ _ v _ _ _ _ hws hv hws' h =>
      have hread := hv.read (endsNumber_char hws' rfl)
      have hrest := (h.read (elements ++ [v]) stack).2
      rw [scan_blank hws, getToken_blank hws, hread, exec_array_separator hws', hrest,
        List.append_assoc, List.singleton_append]
      exact ⟨hread.ne_endArray, rfl⟩
termination_by structural h

theorem MembersText.read {text rest : Text} {ms : List (String × Json (JsonNumber φ))}
    (h : MembersText ft text ms rest) :
    ∃ key input,
      objectKey (jsonNumbers ft).scanner (scan (jsonNumbers ft).scanner text) =
        some (key, input) ∧
      ∀ members stack,
        exec (jsonNumbers ft).scanner
            (getToken (jsonNumbers ft).scanner input (.object members key :: stack)) =
          exec (jsonNumbers ft).scanner ⟨.value (.object (assignAll ms members)), rest, stack⟩ := by
  match h with
  | @MembersText.last _ _ _ key _ _ _ h hws =>
      obtain ⟨input, hkey, hread⟩ := h.read (endsNumber_char hws rfl)
      refine ⟨key, input, hkey, fun members stack => ?_⟩
      rw [hread, exec_close_object hws]
      rfl
  | @MembersText.more _ _ _ key _ _ _ _ _ h hws hmembers =>
      obtain ⟨input, hkey, hread⟩ := h.read (endsNumber_char hws rfl)
      obtain ⟨next, input', hnext, hrest⟩ := hmembers.read
      refine ⟨key, input, hkey, fun members stack => ?_⟩
      rw [hread, exec_object_separator hws members hnext, hrest]
      rfl
termination_by structural h

theorem MemberText.read {text rest : Text} {key : String} {v : Json (JsonNumber φ)}
    (h : MemberText ft text key v rest) (hrest : EndsNumber rest) :
    ReadMember ft text key v rest := by
  match h with
  | @MemberText.intro _ _ _ _ _ _ ws₃ t _ _ hws hkey hws₂ hws₃ hv =>
      refine ⟨ws₃ ++ t, ?_, ?_⟩
      · rw [scan_blank hws, objectKey_string hkey hws₂]
      · intro stack
        rw [getToken_blank hws₃, hv.read hrest]
termination_by structural h

end

theorem endsNumber_atEnd {ws rest : Text} (hws : Blank ws) (h : AtEnd rest) :
    EndsNumber (ws ++ rest) := by
  cases rest with
  | nil =>
      cases ws with
      | nil => exact endsNumber_nil
      | cons c ws =>
          have hc := hws c List.mem_cons_self
          apply endsNumber_cons
          rcases isWhitespace_iff.mp hc with rfl | rfl | rfl | rfl
          all_goals decide
  | cons c rest =>
      obtain rfl := h c rfl
      exact endsNumber_blank hws rest rfl

theorem scan_atEnd (ft : FloatText φ) {ws rest : Text} (hws : Blank ws) (h : AtEnd rest) :
    (scan (jsonNumbers ft).scanner (ws ++ rest)).1 = .endOfInput := by
  rw [scan_blank hws]
  cases rest with
  | nil => rfl
  | cons c rest =>
      obtain rfl := h c rfl
      rfl

theorem parse_document {text : Text} {j : Json (JsonNumber φ)} (h : DocumentText ft text j) :
    parse (jsonNumbers ft) text = some j := by
  obtain ⟨ws, t, ws', rest, htext, hws, hv, hws', hend⟩ := h
  have hread := hv.read (endsNumber_atEnd hws' hend) []
  rw [exec_value] at hread
  rw [parse, htext, parseFrom, getToken_blank hws, hread]
  have hscan := scan_atEnd ft hws' hend
  simp only
  split
  · rfl
  · next hne => exact (hne _ (Prod.ext hscan rfl)).elim

/-! ## Only documents are read -/

section Tokens

variable {text rest : Text} {last : Token (JsonNumber φ)}

/-- The text of a token, and the text after it. -/
inductive TokenText (ft : FloatText φ) : Text → Token (JsonNumber φ) → Text → Prop
  | beginArray {r} : TokenText ft ('[' :: r) .beginArray r
  | endArray {r} : TokenText ft (']' :: r) .endArray r
  | beginObject {r} : TokenText ft ('{' :: r) .beginObject r
  | endObject {r} : TokenText ft ('}' :: r) .endObject r
  | nameSeparator {r} : TokenText ft (':' :: r) .nameSeparator r
  | valueSeparator {r} : TokenText ft (',' :: r) .valueSeparator r
  | value {t value r} (h : ValueText ft t (.primitive value) r) : TokenText ft t (.value value) r
  | endOfInput {t r} (h : AtEnd t) : TokenText ft t .endOfInput r
  | parseError {t r} : TokenText ft t .parseError r

theorem valueText_number {value : JsonNumber φ} (h : scanNumber ft text = some (value, rest)) :
    ValueText ft text (.primitive (.number value)) rest := by
  obtain ⟨l, rfl, -, hvalue⟩ := (scanNumber_iff ft).mp h
  exact .number hvalue

theorem valueText_string {s : String} (h : scanString text = some (s, rest)) :
    ValueText ft text (.primitive (.string s)) rest := by
  unfold scanString at h
  split at h
  · obtain ⟨⟨value, r⟩, hread, heq⟩ := Option.map_eq_some_iff.mp h
    cases heq
    obtain ⟨body, rfl, hbody⟩ := scanCharacters_sound hread
    exact .string hbody
  · simp at h

theorem scanLiteral_text {literal : Text} {value : Primitive (JsonNumber φ)}
    (hliteral : ∀ r, ValueText ft (literal ++ r) (.primitive value) r)
    (h : scanLiteral literal value text = (last, rest)) : TokenText ft text last rest := by
  unfold scanLiteral at h
  split at h
  · next hprefix =>
      rw [map_charOf_char] at hprefix
      obtain ⟨r, rfl⟩ := hprefix
      cases h
      rw [List.drop_left]
      exact .value (hliteral r)
  · cases h
    exact .parseError

theorem valueToken_text {α : Type*} {f : α → Primitive (JsonNumber φ)} {r : Option (α × Text)}
    (hvalue : ∀ a rest, r = some (a, rest) → ValueText ft text (.primitive (f a)) rest)
    (h : valueToken f r = (last, rest)) : TokenText ft text last rest := by
  cases r with
  | none =>
      cases h
      exact .parseError
  | some r =>
      cases h
      exact .value (hvalue r.1 r.2 rfl)

theorem scanToken_text (h : scanToken (jsonNumbers ft).scanner text = (last, rest)) :
    TokenText ft text last rest := by
  cases text with
  | nil =>
      cases h
      exact .endOfInput (by simp [AtEnd])
  | cons c text =>
      rw [scanToken, charOf_char] at h
      split at h
      case h_7 => exact scanLiteral_text (fun _ => .true) h
      case h_8 => exact scanLiteral_text (fun _ => .false) h
      case h_9 => exact scanLiteral_text (fun _ => .null) h
      case h_10 => exact valueToken_text (fun _ _ => valueText_string) h
      case h_11 =>
          cases h
          exact .endOfInput (by simp [AtEnd])
      case h_12 =>
          split at h
          · exact valueToken_text (fun _ _ => valueText_number) h
          · cases h
            exact .parseError
      all_goals
        cases h
        constructor

/-- The whitespace in front of a token. -/
theorem scan_text (h : scan (jsonNumbers ft).scanner text = (last, rest)) :
    ∃ ws t, text = ws ++ t ∧ Blank ws ∧ TokenText ft t last rest := by
  refine ⟨text.takeWhile isWhitespace, text.dropWhile isWhitespace, ?_, ?_, scanToken_text h⟩
  · rw [List.takeWhile_append_dropWhile]
  · exact fun c hc => List.mem_takeWhile_imp hc

end Tokens

/-- How the text goes on after an element: to the end of its array, with `values` from that
element on. -/
def AfterElement (ft : FloatText φ) (v : Json (JsonNumber φ)) (text : Text)
    (values : List (Json (JsonNumber φ))) (rest : Text) : Prop :=
  ∀ ws t, Blank ws → ValueText ft t v text → ElementsText ft (ws ++ t) values rest

def AfterMember (ft : FloatText φ) (key : String) (v : Json (JsonNumber φ)) (text : Text)
    (members : List (String × Json (JsonNumber φ))) (rest : Text) : Prop :=
  ∀ t, MemberText ft t key v text → MembersText ft t members rest

/-- After the value `v` the text closes the open containers, the outermost one as `j`. -/
def Closes (ft : FloatText φ) : List (Frame (JsonNumber φ)) → Json (JsonNumber φ) → Text →
    Json (JsonNumber φ) → Text → Prop
  | [], v, text, j, rest => v = j ∧ text = rest
  | .array elements :: stack, v, text, j, rest => ∃ values u,
      AfterElement ft v text values u ∧ Closes ft stack (.array (elements ++ values)) u j rest
  | .object members key :: stack, v, text, j, rest => ∃ ms u,
      AfterMember ft key v text ms u ∧ Closes ft stack (.object (assignAll ms members)) u j rest

/-- A value at the start of the text and what closes the open containers after it. -/
def Completes (ft : FloatText φ) (stack : List (Frame (JsonNumber φ))) (text : Text)
    (j : Json (JsonNumber φ)) (rest : Text) : Prop :=
  ∃ v u, ValueText ft text v u ∧ Closes ft stack v u j rest

/-- What the text is when the loop, from this state on, ends with `j`. -/
def Sound (ft : FloatText φ) (s : ParserState (JsonNumber φ)) (j : Json (JsonNumber φ))
    (rest : Text) : Prop :=
  match s.control with
  | .value v => Closes ft s.stack v s.input j rest
  | .token last => ∀ text, TokenText ft text last s.input → Completes ft s.stack text j rest

def SoundFlow (ft : FloatText φ) (flow : Flow (JsonNumber φ)) (j : Json (JsonNumber φ))
    (rest : Text) : Prop :=
  match flow with
  | .next s => Sound ft s j rest
  | .done v text => v = j ∧ text = rest
  | .error => False

section Soundness

variable {text rest input : Text} {v j : Json (JsonNumber φ)} {stack : List (Frame (JsonNumber φ))}

theorem scan_valueSeparator (h : scan (jsonNumbers ft).scanner text = (.valueSeparator, rest)) :
    ∃ ws, Blank ws ∧ text = ws ++ ',' :: rest := by
  obtain ⟨ws, t, rfl, hws, ht⟩ := scan_text h
  cases ht
  exact ⟨ws, hws, rfl⟩

theorem scan_endArray (h : scan (jsonNumbers ft).scanner text = (.endArray, rest)) :
    ∃ ws, Blank ws ∧ text = ws ++ ']' :: rest := by
  obtain ⟨ws, t, rfl, hws, ht⟩ := scan_text h
  cases ht
  exact ⟨ws, hws, rfl⟩

theorem scan_endObject (h : scan (jsonNumbers ft).scanner text = (.endObject, rest)) :
    ∃ ws, Blank ws ∧ text = ws ++ '}' :: rest := by
  obtain ⟨ws, t, rfl, hws, ht⟩ := scan_text h
  cases ht
  exact ⟨ws, hws, rfl⟩

theorem scan_nameSeparator (h : scan (jsonNumbers ft).scanner text = (.nameSeparator, rest)) :
    ∃ ws, Blank ws ∧ text = ws ++ ':' :: rest := by
  obtain ⟨ws, t, rfl, hws, ht⟩ := scan_text h
  cases ht
  exact ⟨ws, hws, rfl⟩

theorem scan_stringValue {s : String}
    (h : scan (jsonNumbers ft).scanner text = (.value (.string s), rest)) :
    ∃ ws body key, Blank ws ∧ StringText body key ∧ s = .ofList key ∧
      text = ws ++ '"' :: (body ++ '"' :: rest) := by
  obtain ⟨ws, t, rfl, hws, ht⟩ := scan_text h
  cases ht with
  | value hvalue =>
      cases hvalue with
      | string hbody => exact ⟨ws, _, _, hws, hbody, rfl, rfl⟩

/-- A key, the separator and a value are a member. -/
theorem memberText_of_objectKey {key : String}
    (h : objectKey (jsonNumbers ft).scanner (scan (jsonNumbers ft).scanner text) =
      some (key, input))
    {ws t u : Text} (hinput : input = ws ++ t) (hws : Blank ws) (hv : ValueText ft t v u) :
    MemberText ft text key v u := by
  rcases hscan : scan (jsonNumbers ft).scanner text with ⟨last, after⟩
  rw [hscan] at h
  unfold objectKey at h
  split at h
  · next heq =>
      cases heq
      obtain ⟨ws₁, body, key, hws₁, hbody, rfl, rfl⟩ := scan_stringValue hscan
      split at h
      · next hname =>
          cases h
          obtain ⟨ws₂, hws₂, rfl⟩ := scan_nameSeparator hname
          rw [hinput]
          exact .intro hws₁ hbody hws₂ hws hv
      · simp at h
  · simp at h

theorem completes_of_getToken (h : Sound ft (getToken (jsonNumbers ft).scanner text stack) j rest) :
    ∃ ws t, text = ws ++ t ∧ Blank ws ∧ Completes ft stack t j rest := by
  obtain ⟨ws, t, htext, hws, ht⟩ := scan_text (rfl : scan (jsonNumbers ft).scanner text = (_, _))
  exact ⟨ws, t, htext, hws, h t ht⟩

theorem evaluate_sound
    (h : SoundFlow ft (evaluate (jsonNumbers ft).scanner v text stack) j rest) :
    Closes ft stack v text j rest := by
  unfold evaluate at h
  split at h
  · exact h
  · split at h
    · next hscan =>
        obtain ⟨ws, hws, rfl⟩ := scan_valueSeparator hscan
        obtain ⟨ws₂, t, rfl, hws₂, v₂, u, hv₂, values, u₂, hafter, hcloses⟩ :=
          completes_of_getToken h
        rw [List.append_assoc] at hcloses
        exact ⟨_, u₂, fun _ _ hblank hv => .more hblank hv hws (hafter ws₂ t hws₂ hv₂), hcloses⟩
    · next hscan =>
        obtain ⟨ws, hws, rfl⟩ := scan_endArray hscan
        exact ⟨_, _, fun _ _ hblank hv => .last hblank hv hws, h⟩
    · exact h.elim
  · split at h
    · next hscan =>
        obtain ⟨ws, hws, rfl⟩ := scan_valueSeparator hscan
        split at h
        · next hkey =>
            obtain ⟨ws₂, t, hinput, hws₂, v₂, u, hv₂, ms, u₂, hafter, hcloses⟩ :=
              completes_of_getToken h
            have hmember := memberText_of_objectKey hkey hinput hws₂ hv₂
            exact ⟨_ :: ms, u₂, fun _ hm => .more hm hws (hafter _ hmember), hcloses⟩
        · exact h.elim
    · next hscan =>
        obtain ⟨ws, hws, rfl⟩ := scan_endObject hscan
        exact ⟨[_], _, fun _ hm => .last hm hws, h⟩
    · exact h.elim

theorem step_sound {s : ParserState (JsonNumber φ)}
    (h : SoundFlow ft (step (jsonNumbers ft).scanner s) j rest) : Sound ft s j rest := by
  unfold step at h
  unfold Sound
  split at h
  · next hcontrol =>
      rw [hcontrol]
      intro text htext
      cases htext
      split at h
      · next hscan =>
          obtain ⟨ws, hws, hinput⟩ := scan_endObject hscan
          rw [hinput]
          exact ⟨_, _, .emptyObject hws, evaluate_sound h⟩
      · split at h
        · next hkey =>
            obtain ⟨ws, t, hinput, hws, v, u, hv, ms, u₂, hafter, hcloses⟩ :=
              completes_of_getToken h
            have hmember := memberText_of_objectKey hkey hinput hws hv
            exact ⟨_, u₂, .object (hafter _ hmember), hcloses⟩
        · exact h.elim
  · next hcontrol =>
      rw [hcontrol]
      intro text htext
      cases htext
      split at h
      · next hscan =>
          obtain ⟨ws, hws, hinput⟩ := scan_endArray hscan
          rw [hinput]
          exact ⟨_, _, .emptyArray hws, evaluate_sound h⟩
      · next hscan =>
          obtain ⟨ws, t, hinput, hws, ht⟩ := scan_text hscan
          obtain ⟨v, u, hv, values, u₂, hafter, hcloses⟩ := h t ht
          rw [hinput]
          exact ⟨_, u₂, .array (hafter ws t hws hv), hcloses⟩
  · next hcontrol =>
      rw [hcontrol]
      intro text htext
      cases htext with
      | value hv => exact ⟨_, _, hv, evaluate_sound h⟩
  · exact h.elim
  · next hcontrol =>
      rw [hcontrol]
      exact evaluate_sound h

theorem exec_sound {s : ParserState (JsonNumber φ)}
    (h : exec (jsonNumbers ft).scanner s = some (j, rest)) : Sound ft s j rest := by
  fun_induction exec (jsonNumbers ft).scanner s with
  | case1 s t hstep ih =>
      apply step_sound
      rw [hstep]
      exact ih h
  | case2 s v text hstep =>
      cases h
      apply step_sound
      rw [hstep]
      exact ⟨rfl, rfl⟩
  | case3 => simp at h

theorem document_of_parse (h : parse (jsonNumbers ft) text = some j) : DocumentText ft text j := by
  unfold parse parseFrom at h
  split at h
  · next hexec =>
      obtain ⟨ws, t, htext, hws, v, u, hv, rfl, rfl⟩ := completes_of_getToken (exec_sound hexec)
      split at h
      · next hscan =>
          cases h
          obtain ⟨ws', tail, rfl, hws', htail⟩ := scan_text hscan
          cases htail with
          | endOfInput hend => exact ⟨ws, t, ws', tail, htext, hws, hv, hws', hend⟩
      · simp at h
  · simp at h

end Soundness

/-- The parser accepts exactly the documents of the grammar, and returns their value. -/
theorem parse_iff_document (ft : FloatText φ) (text : Text) (j : Json (JsonNumber φ)) :
    parse (jsonNumbers ft) text = some j ↔ DocumentText ft text j :=
  ⟨document_of_parse, parse_document⟩

end FastDdsSpy.Json
