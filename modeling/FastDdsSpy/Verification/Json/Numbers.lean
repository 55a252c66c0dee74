import FastDdsSpy.Verification.Json.NumberChange
import FastDdsSpy.Verification.Json.NumberFloat
import FastDdsSpy.Verification.Json.RoundTrip

/-! # The numbers of a document survive its display

With the numbers of the library the displayed text of a document reads back as its value. Of
the type of a number only the sign of an integer that has none is lost. -/

namespace FastDdsSpy

open Json NumberLiteral

variable {φ : Type*} {ft : FloatText φ} {rest : Text}

/-- What the library relies on for its floats: `strtod` rounds the number that a literal
denotes, and the digits of `grisu2` are rounded to the float that they were made from. -/
structure FloatText.Lawful (ft : FloatText φ) (round : Bool → ℚ → Option φ) : Prop where
  strtod_text (l : NumberLiteral) : ft.strtod l.text = round l.negative l.magnitude
  round_zero {x : φ} (h : ft.isZero (ft.abs x) = true) : round (ft.signbit x) 0 = some x
  grisu2_digits {x : φ} (h : ft.isZero (ft.abs x) = false) : ∃ d : Digits,
    (ft.grisu2 (ft.abs x)).1 = d.text ∧ d.text.head? ≠ some '0' ∧
    (d.text.length + (ft.grisu2 (ft.abs x)).2 - 1).natAbs < 1000 ∧
    round (ft.signbit x) (d.value * 10 ^ (ft.grisu2 (ft.abs x)).2) = some x

/-- Whole floats below 1000, to which other numbers are rounded down. -/
def smallFloats : FloatText (Bool × Fin 1000) where
  strtod text :=
    if h : ⌊(NumberLiteral.read text).2⌋₊ < 1000 then some ((NumberLiteral.read text).1, ⟨_, h⟩)
    else none
  signbit x := x.1
  isZero x := x.2 = 0
  neg x := (!x.1, x.2)
  grisu2 x := ((Digits.ofNat x.2).text, 0)

/-- The rounding of `smallFloats`. -/
def roundSmall (negative : Bool) (magnitude : ℚ) : Option (Bool × Fin 1000) :=
  if h : ⌊magnitude⌋₊ < 1000 then some (negative, ⟨_, h⟩) else none

theorem smallFloats_lawful : smallFloats.Lawful roundSmall where
  strtod_text l := by
    simp only [smallFloats, NumberLiteral.read_text]
    rfl
  round_zero {x} h := by
    obtain ⟨negative, n⟩ := x
    have hn : n = 0 := by
      cases negative <;> simpa [smallFloats, FloatText.abs] using h
    subst hn
    simp [roundSmall, smallFloats]
  grisu2_digits {x} h := by
    obtain ⟨negative, n⟩ := x
    have habs : (smallFloats.abs (negative, n)).2 = n := by
      cases negative <;> rfl
    have hn : (n : ℕ) ≠ 0 := by
      intro hn
      have hzero : n = 0 := Fin.ext hn
      cases negative <;> simp [smallFloats, FloatText.abs, hzero] at h
    refine ⟨Digits.ofNat n, ?_, ?_, ?_, ?_⟩
    · exact congrArg (fun m : Fin 1000 => (Digits.ofNat m).text) habs
    · intro hhead
      exact hn (Digits.eq_zero_of_head?_toDigits hhead)
    · have hlength : (Nat.toDigits 10 n).length ≤ 3 :=
        Nat.toDigits_length 10 n 3 (by decide) (by omega)
      simp only [smallFloats, Digits.ofNat]
      omega
    · simp [smallFloats, roundSmall]

/-! ## Reading what was written -/

/-- The absolute value that the digits and the exponent of a float stand for. -/
def FloatText.magnitude (ft : FloatText φ) (x : φ) : ℚ :=
  if ft.isZero (ft.abs x) then 0
  else digitsValue (ft.grisu2 (ft.abs x)).1 * 10 ^ (ft.grisu2 (ft.abs x)).2

theorem toChars_literal {round : Bool → ℚ → Option φ} (hft : ft.Lawful round) (x : φ) :
    ∃ l : NumberLiteral, ft.toChars x = l.text ∧ l.isInteger = false ∧
      l.negative = ft.signbit x ∧ l.magnitude = ft.magnitude x ∧ ft.strtod l.text = some x := by
  unfold FloatText.toChars FloatText.magnitude
  cases hzero : ft.isZero (ft.abs x) with
  | true =>
      let l : NumberLiteral := ⟨ft.signbit x, .zero, some .zero, none, fun _ => rfl⟩
      have hmagnitude : l.magnitude = 0 := by
        simp [l, NumberLiteral.magnitude, fractionValue]
      refine ⟨l, rfl, rfl, rfl, hmagnitude, ?_⟩
      rw [hft.strtod_text, hmagnitude]
      exact hft.round_zero hzero
  | false =>
      obtain ⟨d, hdigits, hlead, hexp, hround⟩ := hft.grisu2_digits hzero
      obtain ⟨l, htext, hsign, hfloat, hvalue⟩ := formatBuffer_writes (ft.signbit x) d hlead
        (-4) 15 hexp
      refine ⟨l, ?_, hfloat, hsign, ?_, ?_⟩
      · rw [← htext, ← hdigits]
        rfl
      · rw [hvalue, hdigits]
        rfl
      · rw [hft.strtod_text, hsign, hvalue, hround]

/-- A literal is at its end before a text that does not go on with a number. -/
theorem endsBefore_of_endsNumber (h : EndsNumber rest) (l : NumberLiteral) : l.EndsBefore rest := by
  intro c hc
  have hc := h c hc
  simp only [continuesNumber, Bool.or_eq_false_iff, decide_eq_false_iff_not] at hc
  obtain ⟨⟨⟨⟨⟨hdigit, hpoint⟩, he⟩, hE⟩, -⟩, -⟩ := hc
  unfold NumberLiteral.continues tailContinues
  split
  · exact hdigit
  · simp [hdigit, he, hE]
  · simp [hdigit, hpoint, he, hE]

/-- The number that the text of an integer is read as. -/
def canonicalNumber : JsonNumber φ → JsonNumber φ
  | .integer x => if x < 0 then .integer x else .unsigned x.toUInt64
  | value => value

theorem literalNumber_unsigned (x : UInt64) :
    literalNumber ft (NumberLiteral.ofNat false x.toNat) = some (.unsigned x) := by
  have hlt : (x.toNat : ℤ) < 2 ^ 64 := by exact_mod_cast x.toNat_lt
  have hvalue : (NumberLiteral.ofNat false x.toNat).integerValue = x.toNat := by
    simp [integerValue, NumberLiteral.ofNat]
  have hdigits : (NumberLiteral.ofNat false x.toNat).integer.value = x.toNat :=
    Digits.value_ofNat x.toNat
  rw [literalNumber, hvalue, if_pos ⟨rfl, rfl, hlt⟩, hdigits, UInt64.ofNat_toNat]

theorem literalNumber_integer {x : Int64} (h : x < 0) :
    literalNumber ft (NumberLiteral.ofNat true x.toInt.natAbs) = some (.integer x) := by
  have hneg : x.toInt < 0 := Int64.lt_iff_toInt_lt.mp h
  have hlow : -2 ^ 63 ≤ x.toInt := Int64.le_toInt x
  have hvalue : (NumberLiteral.ofNat true x.toInt.natAbs).integerValue = x.toInt := by
    simp only [integerValue, NumberLiteral.ofNat, if_true, Digits.value_ofNat]
    omega
  rw [literalNumber, hvalue, if_neg (by simp [NumberLiteral.ofNat]), if_pos ⟨rfl, rfl, hlow⟩,
    Int64.ofInt_toInt]

/-- A nonnegative integer is the unsigned one of its bits. -/
theorem natAbs_toInt {x : Int64} (h : ¬ x < 0) : x.toInt.natAbs = x.toUInt64.toNat := by
  have hle : 0 ≤ x := Int64.not_lt.mp h
  have hnonneg : 0 ≤ x.toInt := Int64.le_iff_toInt_le.mp hle
  rw [Int64.toNat_toUInt64_of_le hle, ← Int64.toNat_toInt]
  omega

theorem dumpInt64_of_nonneg {numberBuffer : Text} (hsize : numberBuffer.length = 64) {x : Int64}
    (h : ¬ x < 0) : dumpInt64 numberBuffer x = dumpUInt64 numberBuffer x.toUInt64 := by
  rw [dumpInt64_eq hsize, dumpUInt64_eq hsize, decide_eq_false h, natAbs_toInt h]

/-- Every 64-bit integer is written in decimals, whatever the buffer held before, and these
are read as the same integer where no number goes on; without a minus sign it is unsigned. -/
theorem integers_roundTrip (ft : FloatText φ) {numberBuffer rest : Text}
    (hsize : numberBuffer.length = 64) (hrest : EndsNumber rest) :
    (∀ x : UInt64, dumpUInt64 numberBuffer x = Nat.toDigits 10 x.toNat ∧
      scanNumber ft (dumpUInt64 numberBuffer x ++ rest) = some (.unsigned x, rest)) ∧
    ∀ x : Int64, dumpInt64 numberBuffer x = (toString x.toInt).toList ∧
      scanNumber ft (dumpInt64 numberBuffer x ++ rest) =
        some (if x < 0 then .integer x else .unsigned x.toUInt64, rest) := by
  have hunsigned (x : UInt64) :
      scanNumber ft (dumpUInt64 numberBuffer x ++ rest) = some (.unsigned x, rest) := by
    rw [dumpUInt64_eq hsize, scanNumber_literal ft _ (endsBefore_of_endsNumber hrest _),
      literalNumber_unsigned, Option.map_some]
  refine ⟨fun x => ⟨?_, hunsigned x⟩, fun x => ⟨?_, ?_⟩⟩
  · rw [dumpUInt64_eq hsize, ofNat_text]
    rfl
  · have hsign : decide (x < 0) = decide (x.toInt < 0) := decide_eq_decide.mpr Int64.lt_iff_toInt_lt
    rw [dumpInt64_eq hsize, ofNat_text, toList_toString, hsign]
  · split
    · next hneg =>
        rw [dumpInt64_eq hsize, decide_eq_true hneg,
          scanNumber_literal ft _ (endsBefore_of_endsNumber hrest _),
          literalNumber_integer hneg, Option.map_some]
    · next hneg => rw [dumpInt64_of_nonneg hsize hneg, hunsigned]

/-- The integers with the largest absolute values, in a buffer that is not empty. -/
theorem integers_roundTrip_bounds :
    dumpUInt64 (List.replicate 64 'x') (-1) = "18446744073709551615".toList ∧
      dumpInt64 (List.replicate 64 'x') Int64.minValue = "-9223372036854775808".toList := by
  have hsize : (List.replicate 64 'x').length = 64 := List.length_replicate
  have hboth := integers_roundTrip smallFloats hsize endsNumber_nil
  refine ⟨(hboth.1 (-1)).1.trans ?_, (hboth.2 Int64.minValue).1.trans ?_⟩
  · decide
  · decide

/-- A float is written as a literal that is no integer and stands for exactly its sign, digits
and exponent, and it is read back where no number goes on. -/
theorem floats_roundTrip {round : Bool → ℚ → Option φ} (hft : ft.Lawful round) (x : φ)
    (hrest : EndsNumber rest) :
    (∃ l : NumberLiteral, ft.toChars x = l.text ∧ l.isInteger = false ∧
      l.negative = ft.signbit x ∧ l.magnitude = ft.magnitude x) ∧
      scanNumber ft (ft.toChars x ++ rest) = some (.float x, rest) := by
  obtain ⟨l, htext, hfloat, hsign, hmagnitude, hread⟩ := toChars_literal hft x
  refine ⟨⟨l, htext, hfloat, hsign, hmagnitude⟩, ?_⟩
  rw [htext, scanNumber_literal ft l (endsBefore_of_endsNumber hrest l), literalNumber,
    if_neg (by simp [hfloat]), if_neg (by simp [hfloat]), hread]
  rfl

/-- Minus forty-two. -/
theorem floats_roundTrip_small : smallFloats.toChars (true, 42) = "-42.0".toList ∧
    scanNumber smallFloats (smallFloats.toChars (true, 42) ++ [',']) =
      some (.float (true, 42), [',']) := by
  refine ⟨?_, (floats_roundTrip smallFloats_lawful (true, 42) (endsNumber_cons [] rfl)).2⟩
  decide

/-! ## Documents -/

theorem dumpNumber_literal {round : Bool → ℚ → Option φ} (hft : ft.Lawful round)
    (value : JsonNumber φ) : ∃ l : NumberLiteral, dumpNumber ft value = l.text ∧
      literalNumber ft l = some (canonicalNumber value) := by
  have hsize : (List.replicate 64 '\x00').length = 64 := List.length_replicate
  cases value with
  | integer x =>
      by_cases hneg : x < 0
      · refine ⟨.ofNat true x.toInt.natAbs, ?_, ?_⟩
        · rw [dumpNumber, dumpInt64_eq hsize, decide_eq_true hneg]
        · rw [literalNumber_integer hneg, canonicalNumber, if_pos hneg]
      · refine ⟨.ofNat false x.toUInt64.toNat, ?_, ?_⟩
        · rw [dumpNumber, dumpInt64_of_nonneg hsize hneg, dumpUInt64_eq hsize]
        · rw [literalNumber_unsigned, canonicalNumber, if_neg hneg]
  | unsigned x =>
      exact ⟨.ofNat false x.toNat, dumpUInt64_eq hsize x, literalNumber_unsigned x⟩
  | float x =>
      obtain ⟨l, htext, hfloat, -, -, hread⟩ := toChars_literal hft x
      refine ⟨l, htext, ?_⟩
      rw [literalNumber, if_neg (by simp [hfloat]), if_neg (by simp [hfloat]), hread]
      rfl

theorem dumpNumber_canonical (ft : FloatText φ) (value : JsonNumber φ) :
    dumpNumber ft (canonicalNumber value) = dumpNumber ft value := by
  cases value with
  | integer x =>
      rw [canonicalNumber]
      split
      · rfl
      · next hneg => exact (dumpInt64_of_nonneg List.length_replicate hneg).symm
  | unsigned x => rfl
  | float x => rfl

/-- The numbers whose text is read as what they are. -/
def isCanonical : JsonNumber φ → Bool
  | .integer x => x < 0
  | _ => true

theorem canonicalNumber_eq {value : JsonNumber φ} (h : isCanonical value = true) :
    canonicalNumber value = value := by
  cases value with
  | integer x => exact if_pos (of_decide_eq_true h)
  | unsigned x => rfl
  | float x => rfl

theorem isCanonical_canonicalNumber (value : JsonNumber φ) :
    isCanonical (canonicalNumber value) = true := by
  cases value with
  | integer x =>
      rw [canonicalNumber]
      split
      · next hneg => exact decide_eq_true hneg
      · rfl
  | unsigned x => rfl
  | float x => rfl

/-- The numbers of the library without those that are read as others. -/
def canonicalNumbers (ft : FloatText φ) :
    NumberText {value : JsonNumber φ // isCanonical value} where
  dumpNumber value := dumpNumber ft value.1
  scanNumber text :=
    match scanNumber ft text with
    | some (value, rest) => if h : isCanonical value then some (⟨value, h⟩, rest) else none
    | none => none
  scanNumber_shorter h := by
    split at h
    · next hscan =>
        split at h
        · cases h
          exact scanNumber_shorter ft hscan
        · simp at h
    · simp at h

theorem readsNumbers_canonical {round : Bool → ℚ → Option φ} (hft : ft.Lawful round) :
    ReadsNumbers (canonicalNumbers ft) where
  starts value := by
    obtain ⟨l, htext, -⟩ := dumpNumber_literal hft value.1
    obtain ⟨c, rest, hcons, hstart⟩ := l.text_eq_cons
    refine ⟨c, rest, htext.trans hcons, ?_⟩
    simpa [startsNumber] using hstart
  reads value rest hrest := by
    obtain ⟨l, htext, hvalue⟩ := dumpNumber_literal hft value.1
    rw [canonicalNumber_eq value.2] at hvalue
    have hread : scanNumber ft (dumpNumber ft value.1 ++ rest) = some (value.1, rest) := by
      rw [htext, scanNumber_literal ft l (endsBefore_of_endsNumber hrest l), hvalue,
        Option.map_some]
    simp only [canonicalNumbers, hread, value.2, dite_true]

theorem parse_print {round : Bool → ℚ → Option φ} (hft : ft.Lawful round)
    {j : Json (JsonNumber φ)} (h : j.Ordered) (indent step : ℕ) :
    parse (jsonNumbers ft) (printJsonArraysInline (jsonNumbers ft) j indent step) =
      some (Json.map canonicalNumber id j) := by
  let f (value : JsonNumber φ) : {value : JsonNumber φ // isCanonical value} :=
    ⟨canonicalNumber value, isCanonical_canonicalNumber value⟩
  have hscans : ScansMore Subtype.val (canonicalNumbers ft) (jsonNumbers ft) := by
    intro text value rest hscan
    simp only [canonicalNumbers] at hscan
    split at hscan
    · next hread =>
        split at hscan
        · cases hscan
          exact hread
        · simp at hscan
    · simp at hscan
  have hprint : printJsonArraysInline (canonicalNumbers ft) (Json.map f id j) indent step =
      printJsonArraysInline (jsonNumbers ft) j indent step :=
    printJsonArraysInline_map (dumpNumber_canonical ft) j indent step
  have hparse := parse_of_reads (reads_print (readsNumbers_canonical hft) (h.map f) indent step)
  rw [hprint] at hparse
  have hread := parse_map hscans hparse
  rwa [map_map _ h] at hread

/-! ## Minus zero -/

/-- The only number that changes its type: the integer minus zero. -/
def dropMinusZero : JsonNumber φ → JsonNumber φ
  | .integer x => if x = 0 then .unsigned 0 else .integer x
  | value => value

theorem canonicalNumber_nonpos {x : Int64} (h : x.toInt ≤ 0) :
    canonicalNumber (.integer x : JsonNumber φ) = dropMinusZero (.integer x) := by
  have hneg : x < 0 ↔ x.toInt < 0 := Int64.lt_iff_toInt_lt
  rw [canonicalNumber, dropMinusZero]
  by_cases hx : x = 0
  · subst hx
    rfl
  · have hne : x.toInt ≠ 0 := fun h0 => hx (Int64.toInt_inj.mp h0)
    rw [if_pos (hneg.mpr (by omega)), if_neg hx]

theorem canonicalNumber_of_scan {text : Text} {value : JsonNumber φ}
    (h : scanNumber ft text = some (value, rest)) :
    canonicalNumber value = dropMinusZero value := by
  obtain ⟨l, -, -, hvalue⟩ := (scanNumber_iff ft).mp h
  unfold literalNumber at hvalue
  split at hvalue
  · cases hvalue
    rfl
  · split at hvalue
    · next hinteger =>
        cases hvalue
        obtain ⟨-, hsign, hlow⟩ := hinteger
        have hnonpos : l.integerValue ≤ 0 := by
          rw [integerValue, hsign, if_pos rfl]
          omega
        refine canonicalNumber_nonpos ?_
        rwa [Int64.toInt_ofInt_of_le hlow (by omega)]
    · obtain ⟨x, -, rfl⟩ := Option.map_eq_some_iff.mp hvalue
      rfl

/-- A parsed document holds only numbers that have been read. -/
theorem map_canonicalNumber {text : Text} {j : Json (JsonNumber φ)}
    (h : parse (jsonNumbers ft) text = some j) :
    Json.map canonicalNumber id j = Json.map dropMinusZero id j := by
  classical
  -- the other numbers can be replaced without any effect on what is parsed
  let g (value : JsonNumber φ) : JsonNumber φ :=
    if canonicalNumber value = dropMinusZero value then value else .unsigned 0
  have hscans : ScansMore g (jsonNumbers ft) (jsonNumbers ft) := by
    intro text value rest hscan
    rw [show g value = value from if_pos (canonicalNumber_of_scan hscan)]
    exact hscan
  have hsame (value : JsonNumber φ) : canonicalNumber (g value) = dropMinusZero (g value) := by
    by_cases hvalue : canonicalNumber value = dropMinusZero value
    · rw [show g value = value from if_pos hvalue, hvalue]
    · rw [show g value = .unsigned 0 from if_neg hvalue]
      rfl
  have hself : j = Json.map g id j := Option.some.inj (h.symm.trans (parse_map hscans h))
  calc Json.map canonicalNumber id j
      = Json.map canonicalNumber id (Json.map g id j) := by rw [← hself]
    _ = Json.map dropMinusZero id (Json.map g id j) := by
        rw [map_map _ (parse_ordered h), map_map _ (parse_ordered h), funext hsame]
    _ = Json.map dropMinusZero id j := by rw [← hself]

/-- The displayed text of a document is a text of its value, in which minus zero as an
integer is zero, and it is displayed as it is. -/
theorem display_numbers {round : Bool → ℚ → Option φ} (hft : ft.Lawful round) {text : Text}
    {j : Json (JsonNumber φ)} (h : parse (jsonNumbers ft) text = some j) (indentStep : ℕ) :
    ∃ formatted, formatJsonArraysInline (jsonNumbers ft) text indentStep = some formatted ∧
      parse (jsonNumbers ft) formatted = some (Json.map dropMinusZero id j) ∧
      formatJsonArraysInline (jsonNumbers ft) formatted indentStep = some formatted := by
  have hread := parse_print hft (parse_ordered h) 0 indentStep
  refine ⟨_, by rw [formatJsonArraysInline, h, Option.map_some], ?_, ?_⟩
  · rw [hread, map_canonicalNumber h]
  · rw [formatJsonArraysInline, hread, Option.map_some,
      printJsonArraysInline_map (p := jsonNumbers ft) (dumpNumber_canonical ft)]

theorem reads_minusZero :
    Reads (jsonNumbers ft) ['-', '0'] (.primitive (.number (.integer 0))) := by
  intro tail stack htail
  have hends := endsBefore_of_endsNumber htail (.ofNat true 0)
  have hscan : scan (jsonNumbers ft).scanner ('-' :: '0' :: tail) =
      (.value (.number (.integer 0)), tail) := by
    rw [scan_of_not_whitespace rfl, scanToken_number rfl]
    exact congrArg (valueToken Primitive.number) (scanNumber_literal ft (.ofNat true 0) hends)
  rw [exec_def, exec_def ⟨.value _, tail, stack⟩]
  simp only [List.cons_append, List.nil_append, getToken, hscan]
  rfl

/-- Minus zero. -/
theorem display_numbers_minusZero :
    ∃ formatted, formatJsonArraysInline (jsonNumbers smallFloats) ['-', '0'] 4 = some formatted ∧
      parse (jsonNumbers smallFloats) formatted =
        some (Json.map dropMinusZero id (.primitive (.number (.integer 0)))) ∧
      formatJsonArraysInline (jsonNumbers smallFloats) formatted 4 = some formatted :=
  display_numbers smallFloats_lawful (parse_of_reads reads_minusZero) 4

end FastDdsSpy
