import FastDdsSpy.Model.NumberText

/-! # The numbers that the lexer reads

The labels of `scan_number` read the parts of a number literal: the lemmas go from the last
label to the first, once for the literals that are read and once for what a result says. -/

namespace FastDdsSpy

open NumberLiteral

variable {state target : NumberState} {numberType result : NumberType} {text token rest : Text}
  {c : Char}

/-! ## Iterations -/

/-- The result with characters read before it. -/
def prepend (pre : Text) (r : NumberType × Text × Text) : NumberType × Text × Text :=
  (r.1, pre ++ r.2.1, r.2.2)

theorem scanLabel_cons (h : state.next c = some target) (text : Text) :
    scanLabel state numberType (c :: text) =
      (scanLabel target (target.enter numberType) text).map (prepend [c]) := by
  rw [scanLabel, charOf_char, h]
  rfl

theorem scanLabel_stop (h : ∀ c ∈ text.head?, state.next c = none) :
    scanLabel state numberType text =
      if state.isDone then some (numberType, [], text) else none := by
  cases text with
  | nil => rfl
  | cons c text => rw [scanLabel, charOf_char, h c rfl]

/-- A label that stays where it is while there are digits. -/
theorem scanLabel_digits (hnext : ∀ c : Char, c.isDigit = true → state.next c = some state)
    (henter : state.enter numberType = numberType) {digits : Text}
    (h : ∀ c ∈ digits, c.isDigit = true) (text : Text) :
    scanLabel state numberType (digits ++ text) =
      (scanLabel state numberType text).map (prepend digits) := by
  induction digits with
  | nil => cases h : scanLabel state numberType text <;> simp [prepend, h]
  | cons c digits ih =>
      obtain ⟨hc, hdigits⟩ := List.forall_mem_cons.mp h
      rw [List.cons_append, scanLabel_cons (hnext c hc), henter, ih hdigits, Option.map_map]
      rfl

/-- What a result says: nothing was read, or one character before another label. -/
theorem scanLabel_cases (h : scanLabel state numberType text = some (result, token, rest)) :
    (token = [] ∧ rest = text ∧ result = numberType ∧ state.isDone = true ∧
      ∀ c ∈ text.head?, state.next c = none) ∨
    ∃ c text' token' target, text = c :: text' ∧ token = c :: token' ∧
      state.next c = some target ∧
      scanLabel target (target.enter numberType) text' = some (result, token', rest) := by
  cases text with
  | nil =>
      simp only [scanLabel, Option.ite_none_right_eq_some] at h
      obtain ⟨hdone, heq⟩ := h
      cases heq
      exact .inl ⟨rfl, rfl, rfl, hdone, by simp⟩
  | cons c text =>
      simp only [scanLabel] at h
      split at h
      · next target hnext =>
          obtain ⟨r, hr, heq⟩ := Option.map_eq_some_iff.mp h
          cases heq
          exact .inr ⟨c, text, r.2.1, target, rfl, rfl, hnext, hr⟩
      · next hnext =>
          simp only [Option.ite_none_right_eq_some] at h
          obtain ⟨hdone, heq⟩ := h
          cases heq
          exact .inl ⟨rfl, rfl, rfl, hdone, by simpa using hnext⟩

/-! ## Reading a literal -/

/-- The type after the fraction and the exponent. -/
def tailType (numberType : NumberType) (fraction : Option Digits) (exponent : Option Exponent) :
    NumberType :=
  if fraction.isNone && exponent.isNone then numberType else .float

def TailEnds (digit : Bool) (fraction : Option Digits) (exponent : Option Exponent)
    (rest : Text) : Prop :=
  ∀ c ∈ rest.head?, tailContinues digit fraction exponent c = false

theorem zero_next_eq_none :
    NumberState.next .zero c = none ↔ tailContinues false none none c = false := by
  grind [NumberState.next, tailContinues]

theorem any1_next_eq_none :
    NumberState.next .any1 c = none ↔ tailContinues true none none c = false := by
  grind [NumberState.next, tailContinues]

theorem decimal2_next_eq_none (digit : Bool) (d : Digits) :
    NumberState.next .decimal2 c = none ↔ tailContinues digit (some d) none c = false := by
  grind [NumberState.next, tailContinues]

theorem isDigit_ne {c d : Char} (hc : c.isDigit = true) (hd : d.isDigit = false) : c ≠ d := by
  rintro rfl
  simp [hc] at hd

theorem scanLabel_any2 {digits : Text} (h : ∀ c ∈ digits, c.isDigit = true)
    (hrest : ∀ c ∈ rest.head?, c.isDigit = false) :
    scanLabel .any2 numberType (digits ++ rest) = some (numberType, digits, rest) := by
  have hstop : ∀ c ∈ rest.head?, NumberState.next .any2 c = none := by
    intro c hc
    simp [NumberState.next, hrest c hc]
  rw [scanLabel_digits (fun c hc => by simp [NumberState.next, hc]) rfl h, scanLabel_stop hstop]
  simp [NumberState.isDone, prepend]

/-- A run of digits from a label that goes to `any2`. -/
theorem scanLabel_exponentDigits (hnext : ∀ c : Char, c.isDigit = true → state.next c = some .any2)
    (d : Digits) (hrest : ∀ c ∈ rest.head?, c.isDigit = false) :
    scanLabel state numberType (d.text ++ rest) = some (numberType, d.text, rest) := by
  obtain ⟨c, digits, htext⟩ := List.exists_cons_of_ne_nil d.ne_nil
  have hdigits := d.all_digits
  rw [htext] at hdigits ⊢
  obtain ⟨hc, hdigits⟩ := List.forall_mem_cons.mp hdigits
  rw [List.cons_append, scanLabel_cons (hnext c hc)]
  simp [NumberState.enter, scanLabel_any2 hdigits hrest, prepend]

theorem scanLabel_exponent (numberType : NumberType) (x : Exponent)
    (hrest : ∀ c ∈ rest.head?, c.isDigit = false) :
    scanLabel .exponent numberType (x.sign.toList ++ x.digits.text ++ rest) =
      some (numberType, x.sign.toList ++ x.digits.text, rest) := by
  cases hsign : x.sign with
  | none =>
      refine scanLabel_exponentDigits (fun c hc => ?_) x.digits hrest
      simp [NumberState.next, hc, isDigit_ne hc (d := '+') rfl, isDigit_ne hc (d := '-') rfl]
  | some c =>
      have hnext : NumberState.next .exponent c = some .sign := by
        simp [NumberState.next, x.sign_mem c hsign]
      have hdigits : scanLabel .sign numberType (x.digits.text ++ rest) =
          some (numberType, x.digits.text, rest) :=
        scanLabel_exponentDigits (fun c hc => by simp [NumberState.next, hc]) x.digits hrest
      simp only [Option.toList_some, List.cons_append]
      rw [scanLabel_cons hnext]
      simp [NumberState.enter, prepend, hdigits]

/-- The exponent after an integer part or a fraction. -/
theorem scanLabel_exponentText (numberType : NumberType) (hdone : state.isDone = true)
    (hmark : ∀ c, c = 'e' ∨ c = 'E' → state.next c = some .exponent)
    (exponent : Option Exponent)
    (hstop : exponent = none → ∀ c ∈ rest.head?, state.next c = none)
    (hrest : exponent ≠ none → ∀ c ∈ rest.head?, c.isDigit = false) :
    scanLabel state numberType (exponentText exponent ++ rest) =
      some (if exponent.isNone then numberType else .float, exponentText exponent, rest) := by
  cases exponent with
  | none => simp [exponentText, scanLabel_stop (hstop rfl), hdone]
  | some x =>
      have hread := scanLabel_exponent .float x (hrest (by simp))
      simp only [exponentText, Exponent.text, List.cons_append]
      rw [scanLabel_cons (hmark x.mark x.mark_mem), NumberState.enter, hread]
      rfl

theorem scanLabel_fraction (d : Digits) (exponent : Option Exponent) {digit : Bool}
    (hrest : TailEnds digit (some d) exponent rest) :
    scanLabel .decimal1 .float (d.text ++ (exponentText exponent ++ rest)) =
      some (.float, d.text ++ exponentText exponent, rest) := by
  have hread : scanLabel .decimal2 .float (exponentText exponent ++ rest) =
      some (.float, exponentText exponent, rest) := by
    rw [scanLabel_exponentText .float rfl]
    · simp
    · intro c hc
      rcases hc with rfl | rfl
      all_goals rfl
    · rintro rfl c hc
      exact (decimal2_next_eq_none digit d).mpr (hrest c hc)
    · intro hexponent c hc
      obtain ⟨x, rfl⟩ := Option.ne_none_iff_exists'.mp hexponent
      exact hrest c hc
  have henter : NumberState.enter .decimal2 .float = .float := rfl
  obtain ⟨c, digits, htext⟩ := List.exists_cons_of_ne_nil d.ne_nil
  have hdigits := d.all_digits
  rw [htext] at hdigits ⊢
  obtain ⟨hc, hdigits⟩ := List.forall_mem_cons.mp hdigits
  have hnext : NumberState.next .decimal1 c = some .decimal2 := by simp [NumberState.next, hc]
  rw [List.cons_append, scanLabel_cons hnext, henter,
    scanLabel_digits (fun c hc => by simp [NumberState.next, hc]) henter hdigits, hread]
  simp [prepend]

/-- The fraction and the exponent after an integer part. -/
theorem scanLabel_tail (numberType : NumberType) {digit : Bool} (hdone : state.isDone = true)
    (hpoint : state.next '.' = some .decimal1)
    (hmark : ∀ c, c = 'e' ∨ c = 'E' → state.next c = some .exponent)
    (hstop : ∀ c, tailContinues digit none none c = false → state.next c = none)
    (fraction : Option Digits) (exponent : Option Exponent)
    (hrest : TailEnds digit fraction exponent rest) :
    scanLabel state numberType (fractionText fraction ++ (exponentText exponent ++ rest)) =
      some (tailType numberType fraction exponent,
        fractionText fraction ++ exponentText exponent, rest) := by
  cases fraction with
  | none =>
      have hread (hstop : exponent = none → ∀ c ∈ rest.head?, state.next c = none)
          (hrest : exponent ≠ none → ∀ c ∈ rest.head?, c.isDigit = false) :=
        scanLabel_exponentText numberType hdone hmark exponent hstop hrest
      simp only [fractionText, tailType, Option.isNone_none, Bool.true_and, List.nil_append]
      refine hread ?_ ?_
      · rintro rfl c hc
        exact hstop c (hrest c hc)
      · intro hexponent c hc
        obtain ⟨x, rfl⟩ := Option.ne_none_iff_exists'.mp hexponent
        exact hrest c hc
  | some d =>
      simp only [fractionText, List.cons_append]
      rw [scanLabel_cons hpoint, NumberState.enter, scanLabel_fraction d exponent hrest]
      rfl

/-- The integer part and what comes after it, from a label in front of the integer part. -/
theorem scanLabel_integer (numberType : NumberType) (hzero : state.next '0' = some .zero)
    (hdigit : ∀ c : Char, c.isDigit = true → c ≠ '0' → state.next c = some .any1)
    (l : NumberLiteral) (hrest : l.EndsBefore rest) :
    scanLabel state numberType
        (l.integer.text ++ (fractionText l.fraction ++ (exponentText l.exponent ++ rest))) =
      some (tailType numberType l.fraction l.exponent,
        l.integer.text ++ (fractionText l.fraction ++ exponentText l.exponent), rest) := by
  have hmark (c : Char) (hc : c = 'e' ∨ c = 'E') :
      NumberState.next .zero c = some .exponent ∧ NumberState.next .any1 c = some .exponent := by
    rcases hc with rfl | rfl
    all_goals exact ⟨rfl, rfl⟩
  obtain ⟨c, digits, htext⟩ := List.exists_cons_of_ne_nil l.integer.ne_nil
  have hdigits := l.integer.all_digits
  have hleading := l.no_leading_zero
  have hends : TailEnds (l.integer.text != ['0']) l.fraction l.exponent rest := hrest
  rw [htext] at hdigits hleading hends ⊢
  obtain ⟨hc, hdigits⟩ := List.forall_mem_cons.mp hdigits
  by_cases hc0 : c = '0'
  · -- a zero is the whole integer part
    obtain rfl : digits = [] := by simpa [hc0] using hleading
    have hzeroDone : NumberState.isDone .zero = true := rfl
    have hzeroPoint : NumberState.next .zero '.' = some .decimal1 := rfl
    have hlast : ([c] != ['0']) = false := by simp [hc0]
    rw [hlast] at hends
    have htail := scanLabel_tail numberType hzeroDone hzeroPoint
      (fun c hc => (hmark c hc).1) (fun c => zero_next_eq_none.mpr) l.fraction l.exponent hends
    rw [hc0, List.cons_append, scanLabel_cons hzero, List.nil_append, NumberState.enter, htail]
    · rfl
    all_goals simp
  · have hany1Done : NumberState.isDone .any1 = true := rfl
    have hany1Point : NumberState.next .any1 '.' = some .decimal1 := rfl
    have hne : ((c :: digits) != ['0']) = true := by simp [hc0]
    rw [hne] at hends
    have htail := scanLabel_tail numberType hany1Done hany1Point
      (fun c hc => (hmark c hc).2) (fun c => any1_next_eq_none.mpr) l.fraction l.exponent hends
    have henter : NumberState.enter .any1 numberType = numberType := rfl
    rw [List.cons_append, scanLabel_cons (hdigit c hc hc0), henter,
      scanLabel_digits (fun c hc => by simp [NumberState.next, hc]) henter hdigits, htail]
    simp [prepend]

/-- The type of a literal, before its value is known to fit. -/
def literalType (l : NumberLiteral) : NumberType :=
  tailType (if l.negative then .integer else .unsigned) l.fraction l.exponent

theorem scanLabel_literal (l : NumberLiteral) (hrest : l.EndsBefore rest) :
    scanLabel .init .unsigned (l.text ++ rest) = some (literalType l, l.text, rest) := by
  have hread (state : NumberState) (numberType : NumberType) (hzero : state.next '0' = some .zero)
      (hdigit : ∀ c : Char, c.isDigit = true → c ≠ '0' → state.next c = some .any1) :=
    scanLabel_integer numberType hzero hdigit l hrest
  cases hsign : l.negative with
  | false =>
      have hinit := hread .init .unsigned rfl fun c hc hc0 => by
        simp [NumberState.next, hc, hc0, isDigit_ne hc (d := '-') rfl]
      simpa [NumberLiteral.text, signText, literalType, hsign] using hinit
  | true =>
      have hminus := hread .minus .integer rfl fun c hc hc0 => by simp [NumberState.next, hc, hc0]
      have hnext : NumberState.next .init '-' = some .minus := rfl
      have henter : NumberState.enter .minus .unsigned = .integer := rfl
      simp only [NumberLiteral.text, signText, literalType, hsign, if_true, List.cons_append,
        List.nil_append, List.append_assoc]
      rw [scanLabel_cons hnext, henter, hminus]
      rfl

/-! ## What a result says -/

theorem any2_reads (h : scanLabel .any2 numberType text = some (result, token, rest)) :
    result = numberType ∧ (∀ c ∈ token, c.isDigit = true) ∧
      ∀ c ∈ rest.head?, c.isDigit = false := by
  induction text generalizing token with
  | nil =>
      cases h
      simp
  | cons c text ih =>
      rcases scanLabel_cases h with
        ⟨rfl, rfl, rfl, -, hstop⟩ | ⟨_, _, token', _, heq, rfl, hnext, hr⟩
      · exact ⟨rfl, by simp, by simpa [NumberState.next] using hstop⟩
      · obtain ⟨rfl, rfl⟩ := List.cons.inj heq
        simp only [NumberState.next, Option.ite_none_right_eq_some] at hnext
        obtain ⟨hc, heq⟩ := hnext
        cases heq
        obtain ⟨hresult, htoken, hrest⟩ := ih hr
        exact ⟨hresult, List.forall_mem_cons.mpr ⟨hc, htoken⟩, hrest⟩

/-- A digit and what `any2` reads after it. -/
theorem exponentDigits_read (hc : c.isDigit = true)
    (h : scanLabel .any2 numberType text = some (result, token, rest)) :
    result = numberType ∧ (∃ d : Digits, c :: token = d.text) ∧
      ∀ c ∈ rest.head?, c.isDigit = false := by
  obtain ⟨hresult, htoken, hrest⟩ := any2_reads h
  exact ⟨hresult, ⟨⟨c :: token, by simp, List.forall_mem_cons.mpr ⟨hc, htoken⟩⟩, rfl⟩, hrest⟩

theorem exponent_reads {mark : Char} (hmark : mark = 'e' ∨ mark = 'E')
    (h : scanLabel .exponent numberType text = some (result, token, rest)) :
    result = numberType ∧ (∃ x : Exponent, mark :: token = x.text) ∧
      ∀ c ∈ rest.head?, c.isDigit = false := by
  rcases scanLabel_cases h with ⟨-, -, -, hdone, -⟩ | ⟨c, _, token', _, rfl, rfl, hnext, hr⟩
  · simp [NumberState.isDone] at hdone
  · simp only [NumberState.next] at hnext
    split at hnext
    · next hsign =>
        cases hnext
        rcases scanLabel_cases hr with ⟨-, -, -, hdone, -⟩ | ⟨c', _, _, _, rfl, rfl, hnext, hr⟩
        · simp [NumberState.isDone] at hdone
        · simp only [NumberState.next, Option.ite_none_right_eq_some] at hnext
          obtain ⟨hc, heq⟩ := hnext
          cases heq
          obtain ⟨hresult, ⟨d, htoken⟩, hrest⟩ := exponentDigits_read hc hr
          refine ⟨hresult, ⟨⟨mark, some c, d, hmark, by simpa using hsign⟩, ?_⟩, hrest⟩
          simp [Exponent.text, htoken]
    · simp only [Option.ite_none_right_eq_some] at hnext
      obtain ⟨hc, heq⟩ := hnext
      cases heq
      obtain ⟨hresult, ⟨d, htoken⟩, hrest⟩ := exponentDigits_read hc hr
      refine ⟨hresult, ⟨⟨mark, none, d, hmark, by simp⟩, ?_⟩, hrest⟩
      simp [Exponent.text, htoken]

/-- What a label reads after a fraction: digits and an exponent. -/
theorem decimal2_reads (h : scanLabel .decimal2 .float text = some (result, token, rest)) :
    result = .float ∧ ∃ (digits : Text) (exponent : Option Exponent),
      (∀ c ∈ digits, c.isDigit = true) ∧ token = digits ++ exponentText exponent ∧
      ∀ c ∈ rest.head?, ∀ d digit, tailContinues digit (some d) exponent c = false := by
  induction text generalizing token with
  | nil =>
      cases h
      exact ⟨rfl, [], none, by simp [exponentText]⟩
  | cons c text ih =>
      rcases scanLabel_cases h with
        ⟨rfl, rfl, rfl, -, hstop⟩ | ⟨_, _, token', _, heq, rfl, hnext, hr⟩
      · exact ⟨rfl, [], none, by simp, rfl,
          fun c hc d digit => (decimal2_next_eq_none digit d).mp (hstop c hc)⟩
      · obtain ⟨rfl, rfl⟩ := List.cons.inj heq
        simp only [NumberState.next] at hnext
        split at hnext
        · next hc =>
            cases hnext
            obtain ⟨hresult, digits, exponent, hdigits, rfl, hrest⟩ := ih hr
            exact ⟨hresult, c :: digits, exponent, List.forall_mem_cons.mpr ⟨hc, hdigits⟩, rfl,
              hrest⟩
        · simp only [Option.ite_none_right_eq_some] at hnext
          obtain ⟨hmark, heq⟩ := hnext
          cases heq
          obtain ⟨hresult, ⟨x, htoken⟩, hrest⟩ := exponent_reads hmark hr
          exact ⟨hresult, [], some x, by simp, htoken, fun c hc _ _ => hrest c hc⟩

/-- The token after an integer part, with its type. -/
def IsTail (digit : Bool) (numberType result : NumberType) (token rest : Text) : Prop :=
  ∃ (fraction : Option Digits) (exponent : Option Exponent),
    result = tailType numberType fraction exponent ∧
    token = fractionText fraction ++ exponentText exponent ∧ TailEnds digit fraction exponent rest

theorem isTail_nil {digit : Bool} (h : ∀ c ∈ rest.head?, tailContinues digit none none c = false) :
    IsTail digit numberType numberType [] rest :=
  ⟨none, none, rfl, rfl, h⟩

theorem isTail_point {digit : Bool}
    (h : scanLabel .decimal1 .float text = some (result, token, rest)) :
    IsTail digit numberType result ('.' :: token) rest := by
  rcases scanLabel_cases h with ⟨-, -, -, hdone, -⟩ | ⟨c, _, token', _, rfl, rfl, hnext, hr⟩
  · simp [NumberState.isDone] at hdone
  · simp only [NumberState.next, Option.ite_none_right_eq_some] at hnext
    obtain ⟨hc, heq⟩ := hnext
    cases heq
    obtain ⟨rfl, digits, exponent, hdigits, rfl, hrest⟩ := decimal2_reads hr
    have hall : ∀ c' ∈ c :: digits, c'.isDigit = true := List.forall_mem_cons.mpr ⟨hc, hdigits⟩
    exact ⟨some ⟨c :: digits, by simp, hall⟩, exponent, rfl, rfl, fun c hc => hrest c hc _ _⟩

theorem isTail_mark {digit : Bool} (hmark : c = 'e' ∨ c = 'E')
    (h : scanLabel .exponent .float text = some (result, token, rest)) :
    IsTail digit numberType result (c :: token) rest := by
  obtain ⟨rfl, ⟨x, htoken⟩, hrest⟩ := exponent_reads hmark h
  exact ⟨none, some x, rfl, htoken, hrest⟩

theorem zero_reads (h : scanLabel .zero numberType text = some (result, token, rest)) :
    IsTail false numberType result token rest := by
  rcases scanLabel_cases h with ⟨rfl, rfl, rfl, -, hstop⟩ | ⟨c, _, token', _, rfl, rfl, hnext, hr⟩
  · exact isTail_nil fun c hc => zero_next_eq_none.mp (hstop c hc)
  · simp only [NumberState.next] at hnext
    split at hnext
    · next hpoint =>
        cases hnext
        subst hpoint
        exact isTail_point hr
    · simp only [Option.ite_none_right_eq_some] at hnext
      obtain ⟨hmark, heq⟩ := hnext
      cases heq
      exact isTail_mark hmark hr

theorem any1_reads (h : scanLabel .any1 numberType text = some (result, token, rest)) :
    ∃ digits tail : Text, (∀ c ∈ digits, c.isDigit = true) ∧ token = digits ++ tail ∧
      IsTail true numberType result tail rest := by
  induction text generalizing token with
  | nil =>
      cases h
      exact ⟨[], [], by simp, rfl, isTail_nil (by simp)⟩
  | cons c text ih =>
      rcases scanLabel_cases h with
        ⟨rfl, rfl, rfl, -, hstop⟩ | ⟨_, _, token', _, heq, rfl, hnext, hr⟩
      · exact ⟨[], [], by simp, rfl, isTail_nil fun c hc => any1_next_eq_none.mp (hstop c hc)⟩
      · obtain ⟨rfl, rfl⟩ := List.cons.inj heq
        simp only [NumberState.next] at hnext
        split at hnext
        · next hc =>
            cases hnext
            obtain ⟨digits, tail, hdigits, rfl, htail⟩ := ih hr
            exact ⟨c :: digits, tail, List.forall_mem_cons.mpr ⟨hc, hdigits⟩, rfl, htail⟩
        · split at hnext
          · next hpoint =>
              cases hnext
              subst hpoint
              exact ⟨[], '.' :: token', by simp, rfl, isTail_point hr⟩
          · simp only [Option.ite_none_right_eq_some] at hnext
            obtain ⟨hmark, heq⟩ := hnext
            cases heq
            exact ⟨[], c :: token', by simp, rfl, isTail_mark hmark hr⟩

/-- What is read from the first digit on: the rest of a literal with either sign. -/
def IsUnsigned (negative : Bool) (numberType result : NumberType) (token rest : Text) : Prop :=
  ∃ l : NumberLiteral, l.negative = negative ∧
    result = tailType numberType l.fraction l.exponent ∧
    token = l.integer.text ++ (fractionText l.fraction ++ exponentText l.exponent) ∧
    l.EndsBefore rest

theorem isUnsigned_zero (negative : Bool)
    (h : scanLabel .zero numberType text = some (result, token, rest)) :
    IsUnsigned negative numberType result ('0' :: token) rest := by
  obtain ⟨fraction, exponent, hresult, rfl, hends⟩ := zero_reads h
  exact ⟨⟨negative, .zero, fraction, exponent, fun _ => rfl⟩, rfl, hresult,
    rfl, hends⟩

theorem isUnsigned_any1 (negative : Bool) (hc : c.isDigit = true) (hc0 : c ≠ '0')
    (h : scanLabel .any1 numberType text = some (result, token, rest)) :
    IsUnsigned negative numberType result (c :: token) rest := by
  obtain ⟨digits, _, hdigits, rfl, fraction, exponent, hresult, rfl, hends⟩ := any1_reads h
  have hne : ((c :: digits) != ['0']) = true := by simp [hc0]
  refine ⟨⟨negative, ⟨c :: digits, by simp, List.forall_mem_cons.mpr ⟨hc, hdigits⟩⟩, fraction,
    exponent, by simp [hc0]⟩, rfl, hresult, rfl, ?_⟩
  rwa [NumberLiteral.EndsBefore, NumberLiteral.continues, hne]

theorem init_reads (h : scanLabel .init .unsigned text = some (result, token, rest)) :
    ∃ l : NumberLiteral, result = literalType l ∧ token = l.text ∧ l.EndsBefore rest := by
  rcases scanLabel_cases h with ⟨-, -, -, hdone, -⟩ | ⟨c, _, token', _, rfl, rfl, hnext, hr⟩
  · simp [NumberState.isDone] at hdone
  · simp only [NumberState.next] at hnext
    split at hnext
    · next hminus =>
        cases hnext
        subst hminus
        rcases scanLabel_cases hr with ⟨-, -, -, hdone, -⟩ | ⟨c, _, tail, _, rfl, rfl, hnext, htail⟩
        · simp [NumberState.isDone] at hdone
        · have hread : IsUnsigned true .integer result (c :: tail) rest := by
            simp only [NumberState.next] at hnext
            split at hnext
            · next hc0 =>
                cases hnext
                subst hc0
                exact isUnsigned_zero true htail
            · next hc0 =>
                simp only [Option.ite_none_right_eq_some] at hnext
                obtain ⟨hc, heq⟩ := hnext
                cases heq
                exact isUnsigned_any1 true hc hc0 htail
          obtain ⟨l, hsign, hresult, htoken, hends⟩ := hread
          refine ⟨l, ?_, ?_, hends⟩
          · rw [hresult, literalType, hsign]
            rfl
          · rw [htoken, NumberLiteral.text, hsign]
            rfl
    · have hread : IsUnsigned false .unsigned result (c :: token') rest := by
        split at hnext
        · next hc0 =>
            cases hnext
            subst hc0
            exact isUnsigned_zero false hr
        · next hc0 =>
            simp only [Option.ite_none_right_eq_some] at hnext
            obtain ⟨hc, heq⟩ := hnext
            cases heq
            exact isUnsigned_any1 false hc hc0 hr
      obtain ⟨l, hsign, hresult, htoken, hends⟩ := hread
      refine ⟨l, ?_, ?_, hends⟩
      · rw [hresult, literalType, hsign]
        rfl
      · rw [htoken, NumberLiteral.text, hsign]
        rfl

/-- The lexer reads the number literal that no longer literal continues. -/
theorem scanLabel_iff : scanLabel .init .unsigned text = some (result, token, rest) ↔
    ∃ l : NumberLiteral, result = literalType l ∧ token = l.text ∧ text = l.text ++ rest ∧
      l.EndsBefore rest := by
  constructor
  · intro h
    obtain ⟨l, hresult, rfl, hends⟩ := init_reads h
    exact ⟨l, hresult, rfl, scanLabel_append h, hends⟩
  · intro h
    obtain ⟨l, rfl, rfl, rfl, hends⟩ := h
    exact scanLabel_literal l hends

end FastDdsSpy
