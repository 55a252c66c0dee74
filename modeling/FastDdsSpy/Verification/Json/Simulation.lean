import FastDdsSpy.Verification.Json.Parser

/-! # Simulation of a parser

A parser whose lexer reads the same tokens, in a representation of its own, builds the same
values in this representation. -/

namespace FastDdsSpy

variable {μ ν : Type*} {ρ σ χ ψ : Type}

def Primitive.map (f : μ → ν) (g : ρ → σ) : Primitive μ ρ → Primitive ν σ
  | .null => .null
  | .boolean value => .boolean value
  | .number value => .number (f value)
  | .string value => .string (g value)

def Token.map (f : μ → ν) (g : ρ → σ) : Token μ ρ → Token ν σ
  | .value v => .value (v.map f g)
  | .beginArray => .beginArray
  | .endArray => .endArray
  | .beginObject => .beginObject
  | .endObject => .endObject
  | .nameSeparator => .nameSeparator
  | .valueSeparator => .valueSeparator
  | .endOfInput => .endOfInput
  | .parseError => .parseError

/-- No iteration follows. -/
def Token.Stops (last : Token μ ρ) : Prop := last = .endOfInput ∨ last = .parseError

namespace Json

mutual

/-- The value with its numbers and strings replaced. -/
def map (f : μ → ν) (g : ρ → σ) : Json μ ρ → Json ν σ
  | .primitive value => .primitive (value.map f g)
  | .array values => .array (mapValues f g values)
  | .object members => .object (mapMembers f g members)
termination_by structural j => j

def mapValues (f : μ → ν) (g : ρ → σ) : List (Json μ ρ) → List (Json ν σ)
  | [] => []
  | value :: rest => map f g value :: mapValues f g rest
termination_by structural values => values

def mapMembers (f : μ → ν) (g : ρ → σ) : List (ρ × Json μ ρ) → List (σ × Json ν σ)
  | [] => []
  | (key, value) :: rest => (g key, map f g value) :: mapMembers f g rest
termination_by structural members => members

end

section Map

variable (f : μ → ν) (g : ρ → σ)

theorem mapValues_eq (values : List (Json μ ρ)) : mapValues f g values = values.map (map f g) := by
  induction values with
  | nil => rfl
  | cons value rest ih => rw [mapValues, ih, List.map_cons]

theorem mapMembers_eq (members : List (ρ × Json μ ρ)) :
    mapMembers f g members = members.map fun m => (g m.1, map f g m.2) := by
  induction members with
  | nil => rfl
  | cons m rest ih => rw [mapMembers, ih, List.map_cons]

@[simp] theorem map_primitive (value : Primitive μ ρ) :
    map f g (.primitive value) = .primitive (value.map f g) := rfl

@[simp] theorem map_array (values : List (Json μ ρ)) :
    map f g (.array values) = .array (values.map (map f g)) := by
  rw [map, mapValues_eq]

@[simp] theorem map_object (members : List (ρ × Json μ ρ)) :
    map f g (.object members) = .object (members.map fun m => (g m.1, map f g m.2)) := by
  rw [map, mapMembers_eq]

end Map

/-! ## Lexers -/

/-- How a second parser represents what a first one reads: its numbers and strings, the input
that is left, and the last tokens of both where the first one reads no more. -/
structure Representation (μ ν : Type*) (ρ σ χ ψ : Type) where
  number : μ → ν
  string : ρ → σ
  input : List χ → List ψ
  Ends : Token μ ρ → Token ν σ → Prop

section Stops

variable [TextUnit χ] {sc : Scanner μ ρ χ}

theorem objectKey_of_stops {p : Token μ ρ × List χ} (h : p.1.Stops) : objectKey sc p = none := by
  obtain ⟨last, input⟩ := p
  rcases h with rfl | rfl <;> rfl

variable [LinearOrder ρ]

/-- An open container is neither closed nor continued. -/
theorem evaluate_of_stops {input : List χ} (h : (scan sc input).1.Stops) (v : Json μ ρ)
    (frame : Frame μ ρ) (stack : List (Frame μ ρ)) :
    evaluate sc v input (frame :: stack) = .error := by
  cases frame <;> rw [evaluate] <;> generalize scan sc input = p at h ⊢
  all_goals
    obtain ⟨last, rest⟩ := p
    rcases h with rfl | rfl <;> rfl

theorem step_of_stops {last : Token μ ρ} (h : last.Stops) (input : List χ)
    (stack : List (Frame μ ρ)) : step sc ⟨.token last, input, stack⟩ = .error := by
  rcases h with rfl | rfl <;> rfl

/-- The parser does not go beyond the first token. -/
theorem parseFrom_of_stops {input : List χ} (h : (scan sc input).1.Stops) :
    parseFrom sc input = none := by
  rw [parseFrom, getToken, exec_def, step_of_stops h]

end Stops

namespace Representation

variable (r : Representation μ ν ρ σ χ ψ)

/-- What the second lexer reads: the same token, until the first one reads no more. -/
inductive ScanFollows : Token μ ρ × List χ → Token ν σ × List ψ → Prop
  | token (last input) :
      ScanFollows (last, input) (last.map r.number r.string, r.input input)
  | ended {last last'} (h : r.Ends last last') (input input') :
      ScanFollows (last, input) (last', input')

/-- The second lexer follows the first one. -/
structure Simulates [TextUnit χ] [TextUnit ψ] [LinearOrder ρ] [LinearOrder σ]
    (sc : Scanner μ ρ χ) (sc' : Scanner ν σ ψ) : Prop where
  strictMono : StrictMono r.string
  stops {last last'} (h : r.Ends last last') : Token.Stops last
  ne_endArray {last last'} (h : r.Ends last last') : last' ≠ .endArray
  scan (input) : r.ScanFollows (scan sc input) (scan sc' (r.input input))

/-- The second lexer reads no more either. -/
def Exact : Prop := ∀ last last', r.Ends last last' → Token.Stops last'

/-- The result that the second parser gets when the first one gets a value. -/
inductive ResultFollows {α β : Type*} (f : α → β) :
    Option (α × List χ) → Option (β × List ψ) → Prop
  | some (value input) : ResultFollows f (some (value, input)) (some (f value, r.input input))
  | none {result} (h : r.Exact → result = none) : ResultFollows f none result

section Tokens

variable [TextUnit χ] [TextUnit ψ] {sc : Scanner μ ρ χ} {sc' : Scanner ν σ ψ}

open TextUnit

/-- The same character selects the same token on both sides. -/
theorem scanToken_follows {current : χ} {current' : ψ} {input : List χ}
    (hchar : charOf current' = charOf current)
    (hliteral : ∀ literal ∈ literals, ∀ value,
      r.ScanFollows (scanLiteral literal value (current :: input))
        (scanLiteral literal (value.map r.number r.string) (current' :: r.input input)))
    (hstring : r.ScanFollows (valueToken .string (sc.scanString input))
      (valueToken .string (sc'.scanString (r.input input))))
    (hnumber : r.ScanFollows (valueToken .number (sc.scanNumber (current :: input)))
      (valueToken .number (sc'.scanNumber (current' :: r.input input))))
    (herror : r.Ends .parseError .parseError) :
    r.ScanFollows (scanToken sc (current :: input))
      (scanToken sc' (current' :: r.input input)) := by
  by_cases hlabel : charOf current ∈ switchLabels
  · rw [scanToken, scanToken, hchar]
    generalize charOf current = c at hlabel
    simp only [switchLabels, List.mem_cons, List.not_mem_nil, or_false] at hlabel
    rcases hlabel with rfl | rfl | rfl | rfl | rfl | rfl | rfl | rfl | rfl | rfl | rfl
    · exact .token .beginArray input
    · exact .token .endArray input
    · exact .token .beginObject input
    · exact .token .endObject input
    · exact .token .nameSeparator input
    · exact .token .valueSeparator input
    · exact hliteral _ (by simp [literals]) (.boolean true)
    · exact hliteral _ (by simp [literals]) (.boolean false)
    · exact hliteral _ (by simp [literals]) .null
    · exact hstring
    · exact .token .endOfInput input
  · rw [scanToken_default sc hlabel, scanToken_default sc' (hchar ▸ hlabel), hchar]
    split
    · exact hnumber
    · exact .ended herror [] []

end Tokens

/-! ## Iterations -/

def json : Json μ ρ → Json ν σ := Json.map r.number r.string

def members (ms : List (ρ × Json μ ρ)) : List (σ × Json ν σ) :=
  ms.map fun m => (r.string m.1, r.json m.2)

theorem json_array (values : List (Json μ ρ)) :
    r.json (.array values) = .array (values.map r.json) := map_array _ _ values

theorem json_object (members : List (ρ × Json μ ρ)) :
    r.json (.object members) = .object (r.members members) := map_object _ _ members

def frame : Frame μ ρ → Frame ν σ
  | .array values => .array (values.map r.json)
  | .object members key => .object (r.members members) (r.string key)

def control : Control μ ρ → Control ν σ
  | .token lastToken => .token (lastToken.map r.number r.string)
  | .value v => .value (r.json v)

/-- The parsers are at the same place with the same containers open, or the first one goes no
further. -/
inductive StateFollows : ParserState μ ρ χ → ParserState ν σ ψ → Prop
  | alive (control input stack) :
      StateFollows ⟨control, input, stack⟩ ⟨r.control control, r.input input, stack.map r.frame⟩
  | ended {last last'} (h : r.Ends last last') (input input' stack stack') :
      StateFollows ⟨.token last, input, stack⟩ ⟨.token last', input', stack'⟩

inductive FlowFollows : Flow μ ρ χ → Flow ν σ ψ → Prop
  | next {s t} (h : r.StateFollows s t) : FlowFollows (.next s) (.next t)
  | done (v input) : FlowFollows (.done v input) (.done (r.json v) (r.input input))
  | error {flow} (h : r.Exact → flow = .error) : FlowFollows .error flow

variable {r}

/-- The next token, with the containers that are open. -/
theorem ScanFollows.state {p : Token μ ρ × List χ} {q : Token ν σ × List ψ}
    (h : r.ScanFollows p q) (stack : List (Frame μ ρ)) :
    r.StateFollows ⟨.token p.1, p.2, stack⟩ ⟨.token q.1, q.2, stack.map r.frame⟩ := by
  cases h with
  | token last input => exact .alive (.token last) input stack
  | ended h => exact .ended h _ _ _ _

section Parser

variable [LinearOrder ρ] [LinearOrder σ] [TextUnit χ] [TextUnit ψ]
  {sc : Scanner μ ρ χ} {sc' : Scanner ν σ ψ}

theorem getToken_follows (h : r.Simulates sc sc') (input : List χ) (stack : List (Frame μ ρ)) :
    r.StateFollows (getToken sc input stack)
      (getToken sc' (r.input input) (stack.map r.frame)) :=
  (h.scan input).state stack

/-- The token after a key is the separator for both. -/
theorem objectKey_follows (h : r.Simulates sc sc') {p : Token μ ρ × List χ}
    {q : Token ν σ × List ψ} (hpq : r.ScanFollows p q) :
    r.ResultFollows r.string (objectKey sc p) (objectKey sc' q) := by
  cases hpq with
  | ended hend =>
      rw [objectKey_of_stops (h.stops hend)]
      exact .none fun hexact => objectKey_of_stops (hexact _ _ hend)
  | token last input =>
      cases last with
      | value value =>
          cases value with
          | string key =>
              have hscan := h.scan input
              simp only [Token.map, Primitive.map, objectKey]
              generalize scan sc input = p at hscan ⊢
              generalize scan sc' (r.input input) = q at hscan ⊢
              cases hscan with
              | token last input =>
                  cases last with
                  | nameSeparator => exact .some key input
                  | _ => exact .none fun _ => rfl
              | ended hend =>
                  rcases h.stops hend with rfl | rfl
                  all_goals
                    refine .none fun hexact => ?_
                    rcases hexact _ _ hend with rfl | rfl <;> rfl
          | _ => exact .none fun _ => rfl
      | _ => exact .none fun _ => rfl

theorem assign_follows (h : r.Simulates sc sc') (key : ρ) (v : Json μ ρ)
    (members : List (ρ × Json μ ρ)) :
    r.members (OrderedPairs.assign key v members) =
      OrderedPairs.assign (r.string key) (r.json v) (r.members members) :=
  OrderedPairs.map_assign_of_strictMono h.strictMono r.json key v members

theorem evaluate_follows (h : r.Simulates sc sc') (v : Json μ ρ) (input : List χ)
    (stack : List (Frame μ ρ)) :
    r.FlowFollows (evaluate sc v input stack)
      (evaluate sc' (r.json v) (r.input input) (stack.map r.frame)) := by
  cases stack with
  | nil => exact .done v input
  | cons frame stack =>
      have hscan := h.scan input
      rw [List.map_cons]
      generalize hp : scan sc input = p at hscan
      generalize hq : scan sc' (r.input input) = q at hscan
      cases hscan with
      | ended hend =>
          rw [evaluate_of_stops (by rw [hp]; exact h.stops hend)]
          exact .error fun hexact => evaluate_of_stops (by rw [hq]; exact hexact _ _ hend) _ _ _
      | token last input =>
          cases frame with
          | array values =>
              rw [Representation.frame, evaluate, evaluate, hp, hq]
              cases last with
              | valueSeparator =>
                  have hnext := getToken_follows h input (.array (values ++ [v]) :: stack)
                  rw [List.map_cons, Representation.frame, List.map_append] at hnext
                  exact .next hnext
              | endArray =>
                  have hstate : r.StateFollows _ _ :=
                    .alive (.value (.array (values ++ [v]))) input stack
                  rw [control, json_array, List.map_append] at hstate
                  exact .next hstate
              | _ => exact .error fun _ => rfl
          | object members key =>
              rw [Representation.frame, evaluate, evaluate, hp, hq]
              cases last with
              | valueSeparator =>
                  have hkey := objectKey_follows h (h.scan input)
                  simp only [Token.map]
                  generalize objectKey sc (scan sc input) = p at hkey ⊢
                  generalize objectKey sc' (scan sc' (r.input input)) = q at hkey ⊢
                  cases hkey with
                  | some next input =>
                      have hnext := getToken_follows h input
                        (.object (OrderedPairs.assign key v members) next :: stack)
                      rw [List.map_cons, Representation.frame, assign_follows h] at hnext
                      exact .next hnext
                  | none hnone => exact .error fun hexact => by rw [hnone hexact]
              | endObject =>
                  have hstate : r.StateFollows _ _ :=
                    .alive (.value (.object (OrderedPairs.assign key v members))) input stack
                  rw [control, json_object, assign_follows h] at hstate
                  exact .next hstate
              | _ => exact .error fun _ => rfl

theorem step_follows (h : r.Simulates sc sc') {s : ParserState μ ρ χ} {t : ParserState ν σ ψ}
    (hst : r.StateFollows s t) : r.FlowFollows (step sc s) (step sc' t) := by
  cases hst with
  | ended hend =>
      rw [step_of_stops (h.stops hend)]
      exact .error fun hexact => step_of_stops (hexact _ _ hend) _ _
  | alive control input stack =>
      have hscan := h.scan input
      cases control with
      | value v => exact evaluate_follows h v input stack
      | token last =>
          cases last with
          | value v => exact evaluate_follows h (.primitive v) input stack
          | beginArray =>
              simp only [step, Representation.control, Token.map]
              generalize scan sc input = p at hscan ⊢
              generalize scan sc' (r.input input) = q at hscan ⊢
              cases hscan with
              | token last input =>
                  cases last with
                  | endArray => exact evaluate_follows h (.array []) input stack
                  | _ => exact .next (.alive _ input (.array [] :: stack))
              | @ended last last' hend =>
                  rcases h.stops hend with rfl | rfl
                  all_goals
                    cases last' with
                    | endArray => exact absurd rfl (h.ne_endArray hend)
                    | _ => exact .next (.ended hend _ _ _ _)
          | beginObject =>
              simp only [step, Representation.control, Token.map]
              have hkey := objectKey_follows h hscan
              generalize scan sc input = p at hscan hkey ⊢
              generalize scan sc' (r.input input) = q at hscan hkey ⊢
              cases hscan with
              | token last input =>
                  cases last with
                  | endObject => exact evaluate_follows h (.object []) input stack
                  | value v =>
                      simp only [Token.map] at hkey ⊢
                      generalize objectKey sc (.value v, input) = p at hkey ⊢
                      generalize objectKey sc' (.value (v.map r.number r.string), r.input input) = q
                        at hkey ⊢
                      cases hkey with
                      | some key input =>
                          exact .next (getToken_follows h input (.object [] key :: stack))
                      | none hnone => exact .error fun hexact => by rw [hnone hexact]
                  | _ => exact .error fun _ => rfl
              | ended hend =>
                  rcases h.stops hend with rfl | rfl
                  all_goals
                    refine .error fun hexact => ?_
                    rcases hexact _ _ hend with rfl | rfl <;> rfl
          | _ => exact .error fun _ => rfl

/-! ## Runs -/

theorem exec_follows (h : r.Simulates sc sc') {s : ParserState μ ρ χ} {t : ParserState ν σ ψ}
    (hst : r.StateFollows s t) : r.ResultFollows r.json (exec sc s) (exec sc' t) := by
  fun_induction exec sc s generalizing t with
  | case1 s s' hstep ih =>
      have hfollows := step_follows h hst
      rw [hstep] at hfollows
      rw [exec_def t]
      generalize step sc' t = flow at hfollows ⊢
      cases hfollows with
      | next hst' => exact ih hst'
  | case2 s v input hstep =>
      have hfollows := step_follows h hst
      rw [hstep] at hfollows
      rw [exec_def t]
      generalize step sc' t = flow at hfollows ⊢
      cases hfollows
      exact .some v input
  | case3 s hstep =>
      have hfollows := step_follows h hst
      rw [hstep] at hfollows
      rw [exec_def t]
      generalize step sc' t = flow at hfollows ⊢
      cases hfollows with
      | error herror => exact .none fun hexact => by rw [herror hexact]

/-- What is read from an input, up to the end of its first value. -/
theorem exec_getToken (h : r.Simulates sc sc') (input : List χ) :
    r.ResultFollows r.json (exec sc (getToken sc input []))
      (exec sc' (getToken sc' (r.input input) [])) :=
  exec_follows h (getToken_follows h input [])

/-- What the first parser accepts is accepted by the second one, if this one sees the end of its
input where the first one does. -/
theorem parseFrom_follows (h : r.Simulates sc sc')
    (hend : ∀ last, r.Ends .endOfInput last → last = .endOfInput) {input : List χ} {v : Json μ ρ}
    (hparse : parseFrom sc input = some v) : parseFrom sc' (r.input input) = some (r.json v) := by
  have hexec := exec_getToken h input
  unfold parseFrom at hparse ⊢
  generalize exec sc (getToken sc input []) = result at hexec hparse
  generalize exec sc' (getToken sc' (r.input input) []) = result' at hexec ⊢
  cases hexec with
  | none => simp at hparse
  | some v input =>
      have hscan := h.scan input
      simp only at hparse ⊢
      generalize scan sc input = p at hscan hparse
      generalize scan sc' (r.input input) = q at hscan ⊢
      split at hparse
      · cases hparse
        cases hscan with
        | token => rfl
        | ended hends =>
            obtain rfl := hend _ hends
            rfl
      · simp at hparse

/-- What the first parser rejects is rejected by an exact one, if this one does not see the end of
its input before the first one does. -/
theorem parseFrom_follows_none (h : r.Simulates sc sc') (hexact : r.Exact)
    (hend : ∀ last, r.Ends last .endOfInput → last = .endOfInput) {input : List χ}
    (hparse : parseFrom sc input = none) : parseFrom sc' (r.input input) = none := by
  have hexec := exec_getToken h input
  unfold parseFrom at hparse ⊢
  generalize exec sc (getToken sc input []) = result at hexec hparse
  generalize exec sc' (getToken sc' (r.input input) []) = result' at hexec ⊢
  cases hexec with
  | none hnone => rw [hnone hexact]
  | some v input =>
      have hscan := h.scan input
      simp only at hparse ⊢
      generalize scan sc input = p at hscan hparse
      generalize scan sc' (r.input input) = q at hscan ⊢
      cases hscan with
      | token last input =>
          cases last with
          | endOfInput => cases hparse
          | _ => rfl
      | ended hends =>
          split
          · next heq =>
              cases heq
              obtain rfl := hend _ hends
              cases hparse
          · rfl

end Parser

end Representation

end Json

end FastDdsSpy
