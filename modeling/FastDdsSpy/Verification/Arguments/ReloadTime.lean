import FastDdsSpy.Library.PastTime
import FastDdsSpy.Model.Arguments

/-! # The reload period

The check of the argument accepts every numeral, with a sign and of any size. The period is
taken exactly if the seconds are not negative and their milliseconds fit 32 bits. -/

namespace FastDdsSpy

open PastTime

/-! ## Numerals -/

/-- After the white space, the argument is a numeral of the integer and nothing else. -/
def DenotesInteger (arg : String) (n : ℤ) : Prop :=
  Decimals.integer? (arg.toList.dropWhile isSpace) = some n

instance (arg : String) (n : ℤ) : Decidable (DenotesInteger arg n) :=
  inferInstanceAs (Decidable (_ = _))

variable {arg : String} {n : ℤ}

theorem DenotesInteger.unique {m : ℤ} (h : DenotesInteger arg n) (h' : DenotesInteger arg m) :
    n = m :=
  Option.some.inj (h.symm.trans h')

theorem subject?_eq_iff : subject? arg.toList = some (n, []) ↔ DenotesInteger arg n :=
  Decimals.scanInteger?_eq_some_nil

theorem length_of_subject? {text rest : List Char} (h : subject? text = some (n, rest)) :
    rest.length < text.length :=
  (Decimals.length_of_scanInteger? h).trans_le (List.dropWhile_sublist _).length_le

/-- The check accepts exactly the texts that denote an integer, of any size. -/
theorem numeric_iff {option : CommandOption} (h : option.arg = some arg) :
    Arg.numeric option = true ↔ ∃ n, DenotesInteger arg n := by
  simp only [Arg.numeric, h, Option.any_some, Bool.and_eq_true, decide_eq_true_eq,
    ← subject?_eq_iff]
  constructor
  · intro hread
    obtain ⟨hne, hend⟩ := hread
    unfold strtol at hne hend
    split at hend
    · next n rest hsubject =>
        cases hend
        exact ⟨n, hsubject⟩
    · next hsubject =>
        rw [hsubject] at hne
        exact absurd rfl hne
  · intro hread
    obtain ⟨n, hsubject⟩ := hread
    have hlength := length_of_subject? hsubject
    simp only [strtol, hsubject, and_true]
    intro hnil
    simp [← hnil] at hlength

theorem stol_of_denotes (h : DenotesInteger arg n) :
    stol arg.toList = if FitsLong n then .returned n else .thrown := by
  rw [stol, subject?_eq_iff.mpr h]

/-! ## One option -/

/-- The argument of `--reload-time`, if this is the option. -/
def reloadArg (option : CommandOption) : Option String :=
  if option.index = .reloadTime then option.arg else none

/-- The period is the one of the last argument given, or the one from before. -/
def ReloadTimeIs (before : BitVec 32) (last : Option String) (reloadTime : BitVec 32) : Prop :=
  match last with
  | some arg => ∀ n, DenotesInteger arg n → reloadTime = BitVec.ofInt 32 (n * 1000)
  | none => reloadTime = before

variable (support : ArgumentSupport) {args args' : CommandlineArgsSpy} {option : CommandOption}

theorem exists_of_reloadArg (h : checkArg support option = true)
    (hindex : option.index = .reloadTime) :
    ∃ arg n, option.arg = some arg ∧ reloadArg option = some arg ∧ DenotesInteger arg n := by
  rw [checkArg, hindex] at h
  cases harg : option.arg with
  | none => simp [Arg.numeric, harg] at h
  | some arg =>
      obtain ⟨n, hn⟩ := (numeric_iff harg).mp h
      exact ⟨arg, n, rfl, by rw [reloadArg, if_pos hindex, harg], hn⟩

/-- The three ways in which the period can be read. -/
theorem handleOption_reloadTime (h : DenotesInteger arg n) :
    handleOption support args .reloadTime arg =
      if ¬ FitsLong n then .thrown
      else if ¬ FitsLong (n * 1000) then .undefined
      else .returned (.ok { args with reloadTime := BitVec.ofInt 32 (n * 1000) }) := by
  rw [handleOption, stol_of_denotes h]
  by_cases hn : FitsLong n
  · by_cases hmul : FitsLong (n * 1000)
    · simp [hn, hmul, mulLong]
    · simp [hn, hmul, mulLong]
  · simp [hn]

theorem handleOption_ne_success {index : OptionIndex} {code : ProcessReturnCode}
    (h : handleOption support args index arg = .returned (.error code)) : code ≠ .success := by
  unfold handleOption at h
  grind

/-- An argument of the option that is taken exactly. -/
def Representable (arg : String) : Prop := ∀ n, DenotesInteger arg n → 0 ≤ n ∧ n ≤ 4294967

/-- Any other option that passes its check is handled without an exception. -/
theorem handleOption_returned (args : CommandlineArgsSpy) (h : checkArg support option = true)
    (hreload : ∀ arg, reloadArg option = some arg → Representable arg) :
    ∃ result, handleOption support args option.index (option.arg.getD "") = .returned result := by
  cases hindex : option.index with
  | reloadTime =>
      obtain ⟨arg, n, harg, hlast, hn⟩ := exists_of_reloadArg support h hindex
      have hrange := hreload arg hlast n hn
      rw [harg, Option.getD_some, handleOption_reloadTime support hn, if_neg, if_neg]
      · exact ⟨_, rfl⟩
      · simp only [FitsLong]
        omega
      · simp only [FitsLong]
        omega
  | logVerbosity =>
      rw [checkArg, hindex] at h
      cases harg : option.arg with
      | none => simp [Arg.logKindCorrectArgument, Arg.validOptions, harg] at h
      | some arg =>
          have hmem : arg ∈ support.stringVectorLogKind := by
            simpa [Arg.logKindCorrectArgument, Arg.validOptions, harg] using h
          obtain ⟨kind, hkind⟩ :=
            Option.isSome_iff_exists.mp (support.fromStringLogKind_isSome arg hmem)
          simp [handleOption, hkind]
  | domain =>
      simp only [handleOption]
      split
      · split
        · exact ⟨_, rfl⟩
        · exact ⟨_, rfl⟩
      · exact ⟨_, rfl⟩
  | unknownOpt => exact ⟨_, rfl⟩
  | help => exact ⟨_, rfl⟩
  | configurationFile => exact ⟨_, rfl⟩
  | activateDebug => exact ⟨_, rfl⟩
  | version => exact ⟨_, rfl⟩
  | logFilter => exact ⟨_, rfl⟩

theorem handleOption_reloadTimeIs (hcheck : checkArg support option = true)
    (h : handleOption support args option.index (option.arg.getD "") = .returned (.ok args')) :
    ReloadTimeIs args.reloadTime (reloadArg option) args'.reloadTime := by
  by_cases hindex : option.index = .reloadTime
  · obtain ⟨arg, n, harg, hlast, hn⟩ := exists_of_reloadArg support hcheck hindex
    rw [hindex, harg, Option.getD_some, handleOption_reloadTime support hn] at h
    rw [hlast]
    intro m hm
    cases hn.unique hm
    grind
  · rw [reloadArg, if_neg hindex]
    have hsame : args'.reloadTime = args.reloadTime := by
      unfold handleOption at h
      grind
    exact hsame

/-! ## All options -/

/-- One more option at the start. -/
theorem ReloadTimeIs.cons {options : List CommandOption} {before middle after : BitVec 32}
    (hfirst : ReloadTimeIs before (reloadArg option) middle)
    (hrest : ReloadTimeIs middle (latest reloadArg options) after) :
    ReloadTimeIs before (latest reloadArg (option :: options)) after := by
  have hlatest : latest reloadArg (option :: options) =
      (latest reloadArg options).or (reloadArg option) := by
    rw [← List.singleton_append, latest_append, ← List.nil_append [option], latest_concat,
      latest_nil, Option.or_none]
  rw [hlatest]
  cases hlast : latest reloadArg options with
  | none =>
      rw [hlast] at hrest
      rw [Option.none_or, show after = middle from hrest]
      exact hfirst
  | some arg =>
      rw [hlast] at hrest
      exact hrest

theorem parseOptions_returned {options : List CommandOption}
    (h : ∀ option ∈ options, checkArg support option = true)
    (hreload : ∀ option ∈ options, ∀ arg, reloadArg option = some arg → Representable arg)
    (args : CommandlineArgsSpy) :
    ∃ result, parseOptions support args options = .returned result := by
  induction options generalizing args with
  | nil => exact ⟨_, rfl⟩
  | cons option options ih =>
      obtain ⟨hcheck, hchecks⟩ := List.forall_mem_cons.mp h
      obtain ⟨htime, htimes⟩ := List.forall_mem_cons.mp hreload
      obtain ⟨result, hresult⟩ := handleOption_returned support args hcheck htime
      rw [parseOptions, hresult]
      cases result with
      | ok args => exact ih hchecks htimes args
      | error code => exact ⟨_, rfl⟩

theorem parseOptions_reloadTimeIs {options : List CommandOption}
    (h : ∀ option ∈ options, checkArg support option = true)
    (hparse : parseOptions support args options = .returned (.success, args')) :
    ReloadTimeIs args.reloadTime (latest reloadArg options) args'.reloadTime := by
  induction options generalizing args with
  | nil =>
      cases hparse
      rfl
  | cons option options ih =>
      obtain ⟨hcheck, hchecks⟩ := List.forall_mem_cons.mp h
      rw [parseOptions] at hparse
      split at hparse
      · next middle hhandle =>
          exact (handleOption_reloadTimeIs support hcheck hhandle).cons (ih hchecks hparse)
      · next code hhandle =>
          cases hparse
          exact absurd rfl (handleOption_ne_success support hhandle)
      · cases hparse
      · cases hparse

/-- The milliseconds survive the conversion to 32 bits up to some seven weeks. -/
theorem toNat_milliseconds_iff (seconds : ℕ) :
    (BitVec.ofInt 32 ((seconds : ℤ) * 1000)).toNat = 1000 * seconds ↔ seconds ≤ 4294967 := by
  have hcast : BitVec.ofInt 32 ((seconds : ℤ) * 1000) = BitVec.ofNat 32 (seconds * 1000) := by
    rw [← BitVec.ofInt_natCast, Nat.cast_mul]
    rfl
  rw [hcast, BitVec.toNat_ofNat]
  constructor
  · intro h
    have hlt : seconds * 1000 % 2 ^ 32 < 2 ^ 32 := Nat.mod_lt _ (by decide)
    omega
  · intro h
    rw [Nat.mod_eq_of_lt (by omega), Nat.mul_comm]

/-- On a command line, the program returns with a code. With the code for success, the last
reload argument denotes a number of seconds, and the period is this time in milliseconds. -/
structure TakesReloadTime (line : CommandLine) (args : CommandlineArgsSpy) : Prop where
  returns : ∃ result, parseArguments support line args = .returned result
  exact : ∀ args', parseArguments support line args = .returned (.success, args') →
    ∀ arg, latest reloadArg line.options = some arg →
      ∃ n : ℕ, DenotesInteger arg n ∧ args'.reloadTime.toNat = 1000 * n

theorem parseArguments_returned {line : CommandLine}
    (hreload : ∀ option ∈ line.options, ∀ arg, reloadArg option = some arg → Representable arg)
    (args : CommandlineArgsSpy) :
    ∃ result, parseArguments support line args = .returned result := by
  unfold parseArguments
  split
  · next hchecks =>
      split
      · exact ⟨_, rfl⟩
      · split
        · exact ⟨_, rfl⟩
        · exact parseOptions_returned support (List.all_eq_true.mp hchecks) hreload _
  · exact ⟨_, rfl⟩

/-- Success means that every check has passed and that the loop has come to its end. -/
theorem parseArguments_success {line : CommandLine}
    (h : parseArguments support line args = .returned (.success, args')) :
    (∀ option ∈ line.options, checkArg support option = true) ∧
      ReloadTimeIs args.reloadTime (latest reloadArg line.options) args'.reloadTime := by
  unfold parseArguments at h
  split at h
  · next hchecks =>
      have hall := List.all_eq_true.mp hchecks
      split at h
      · cases h
      · split at h
        · cases h
        · have htime := parseOptions_reloadTimeIs support hall h
          exact ⟨hall, htime⟩
  · cases h

/-- The command line with this option only. -/
def reloadLine (arg : String) : CommandLine := ⟨[⟨.reloadTime, some arg⟩], []⟩

theorem parseArguments_reloadLine (h : DenotesInteger arg n) :
    parseArguments support (reloadLine arg) {} =
      if ¬ FitsLong n then .thrown
      else if ¬ FitsLong (n * 1000) then .undefined
      else .returned (.success, { reloadTime := BitVec.ofInt 32 (n * 1000) }) := by
  have hcheck : checkArg support ⟨.reloadTime, some arg⟩ = true := (numeric_iff rfl).mpr ⟨n, h⟩
  simp only [parseArguments, reloadLine, List.all_cons, hcheck, parseOptions, Option.getD_some,
    handleOption_reloadTime support h]
  by_cases hn : FitsLong n
  · by_cases hmul : FitsLong (n * 1000)
    · simp [hn, hmul]
    · simp [hn, hmul]
  · simp [hn]

/-- Alone on the command line, only an argument in the range is taken. -/
theorem representable_of_takesReloadTime (h : TakesReloadTime support (reloadLine arg) {}) :
    Representable arg := by
  intro n hn
  have hparse := parseArguments_reloadLine support hn
  obtain ⟨result, hreturned⟩ := h.returns
  rw [hparse] at hreturned
  split at hreturned
  · cases hreturned
  · split at hreturned
    · cases hreturned
    · next hfits hmul =>
        rw [if_neg hfits, if_neg hmul] at hparse
        obtain ⟨seconds, hseconds, htime⟩ := h.exact _ hparse arg rfl
        cases hn.unique hseconds
        have hle := (toNat_milliseconds_iff seconds).mp htime
        omega

theorem takesReloadTime_of_representable {line : CommandLine}
    (h : ∀ option ∈ line.options, ∀ arg, reloadArg option = some arg → Representable arg)
    (args : CommandlineArgsSpy) : TakesReloadTime support line args := by
  refine ⟨parseArguments_returned support h args, ?_⟩
  intro args' hparse arg hlast
  obtain ⟨hchecks, htime⟩ := parseArguments_success support hparse
  rw [hlast] at htime
  obtain ⟨option, hoption, harg⟩ := exists_mem_of_latest hlast
  have hindex : option.index = .reloadTime := by
    by_contra hne
    simp [reloadArg, hne] at harg
  obtain ⟨_, n, _, hlast', hn⟩ := exists_of_reloadArg support (hchecks option hoption) hindex
  cases Option.some.inj (harg.symm.trans hlast')
  obtain ⟨hpos, hle⟩ := h option hoption arg harg n hn
  lift n to ℕ using hpos
  refine ⟨n, hn, ?_⟩
  rw [htime n hn, toNat_milliseconds_iff]
  omega

/-- The period is taken exactly on every command line whose reload arguments are among some
texts, if and only if these denote no integers but those from 0 to 4294967. -/
theorem takesReloadTime_iff (texts : Set String) :
    (∀ line args, (∀ option ∈ line.options, ∀ arg, reloadArg option = some arg → arg ∈ texts) →
      TakesReloadTime support line args) ↔
    ∀ arg ∈ texts, ∀ n, DenotesInteger arg n → 0 ≤ n ∧ n ≤ 4294967 := by
  constructor
  · intro h arg harg
    have hline := h (reloadLine arg) {} (by simpa [reloadLine, reloadArg] using harg)
    exact representable_of_takesReloadTime support hline
  · intro h line args hline
    refine takesReloadTime_of_representable support ?_ args
    intro option hoption arg harg
    exact h arg (hline option hoption arg harg)

/-! ## Arguments outside the range -/

/-- No file is accessible, and the verbosity has no names. -/
def noSupport : ArgumentSupport where
  isFileAccessible _ := false
  stringVectorLogKind := []
  fromStringLogKind _ := none
  fromStringLogKind_isSome := by simp

/-- The check accepts all three: a second before zero becomes seven weeks, a second too many
becomes less than a second, and a number that `long` cannot hold ends the program. -/
theorem not_takesReloadTime_outside :
    (∀ arg ∈ ["-1", "4294968", "99999999999999999999"],
      Arg.numeric ⟨.reloadTime, some arg⟩ = true ∧
        ¬ TakesReloadTime noSupport (reloadLine arg) {}) ∧
    parseArguments noSupport (reloadLine "-1") {} =
      .returned (.success, { reloadTime := 4294966296 }) ∧
    parseArguments noSupport (reloadLine "4294968") {} =
      .returned (.success, { reloadTime := 704 }) ∧
    parseArguments noSupport (reloadLine "99999999999999999999") {} = .thrown := by
  have hminus : DenotesInteger "-1" (-1) := by decide
  have hmany : DenotesInteger "4294968" 4294968 := by decide
  have hlong : DenotesInteger "99999999999999999999" 99999999999999999999 := by decide
  have hnot {arg : String} {n : ℤ} (h : DenotesInteger arg n) (hn : ¬ (0 ≤ n ∧ n ≤ 4294967)) :
      Arg.numeric ⟨.reloadTime, some arg⟩ = true ∧
        ¬ TakesReloadTime noSupport (reloadLine arg) {} :=
    ⟨(numeric_iff rfl).mpr ⟨n, h⟩, fun htakes =>
      hn (representable_of_takesReloadTime noSupport htakes n h)⟩
  refine ⟨?_, ?_, ?_, ?_⟩
  · simp only [List.forall_mem_cons]
    exact ⟨hnot hminus (by decide), hnot hmany (by decide), hnot hlong (by decide), by simp⟩
  · rw [parseArguments_reloadLine noSupport hminus, if_neg (by decide), if_neg (by decide)]
    rfl
  · rw [parseArguments_reloadLine noSupport hmany, if_neg (by decide), if_neg (by decide)]
    rfl
  · rw [parseArguments_reloadLine noSupport hlong, if_pos (by decide)]

end FastDdsSpy
