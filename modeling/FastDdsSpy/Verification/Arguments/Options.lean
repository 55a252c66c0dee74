import FastDdsSpy.Verification.Arguments.ReloadTime

/-! # The options of a command line

Every setting has the value of the last option that sets it. The loop stops at the first option
that it cannot take, and how it stops depends on that option only. -/

namespace FastDdsSpy

open PastTime

/-! ## What one option sets -/

/-- The argument of an option of this kind. -/
def argOf (index : OptionIndex) (option : CommandOption) : Option String :=
  if option.index = index then option.arg else none

/-- The integer that it denotes. -/
def integerOf (index : OptionIndex) (option : CommandOption) : Option ℤ :=
  (argOf index option).bind fun arg => Decimals.integer? (arg.toList.dropWhile isSpace)

def filterOf (option : CommandOption) : Option (VerbosityKind → String) :=
  match option.index with
  | .activateDebug => some fun kind => if kind = .error then "" else "FASTDDSSPY"
  | .logFilter => option.arg.map fun arg _ => arg
  | _ => none

def verbosityOf (support : ArgumentSupport) (option : CommandOption) : Option VerbosityKind :=
  match option.index with
  | .activateDebug => some .info
  | .logVerbosity => option.arg.bind support.fromStringLogKind
  | _ => none

/-- The last of these options decides, for each setting on its own. -/
def settled (support : ArgumentSupport) (options : List CommandOption)
    (before : CommandlineArgsSpy) : CommandlineArgsSpy where
  oneShotCommand := before.oneShotCommand
  filePath := (latest (argOf .configurationFile) options).getD before.filePath
  reloadTime := ((latest (integerOf .reloadTime) options).map fun seconds =>
    BitVec.ofInt 32 (seconds * 1000)).getD before.reloadTime
  logFilter := (latest filterOf options).getD before.logFilter
  logVerbosity := (latest (verbosityOf support) options).getD before.logVerbosity
  domain := ((latest (integerOf .domain) options).map Int.toNat).getD before.domain

/-- The loop goes on after this option. -/
structure Taken (option : CommandOption) : Prop where
  known : option.index ≠ .unknownOpt
  domain : ∀ n, integerOf .domain option = some n → 0 ≤ n ∧ n ≤ maxDomainId
  time : ∀ n, integerOf .reloadTime option = some n → FitsLong n ∧ FitsLong (n * 1000)

/-- An unknown option, or a domain that does not exist. -/
def Refused (option : CommandOption) : Prop :=
  option.index = .unknownOpt ∨
    ∃ n, integerOf .domain option = some n ∧ ¬ (0 ≤ n ∧ n ≤ maxDomainId)

/-- Seconds that are no `long`. -/
def OutOfRange (option : CommandOption) : Prop :=
  ∃ n, integerOf .reloadTime option = some n ∧ ¬ FitsLong n

/-- Seconds that are a `long`, while their milliseconds are not. -/
def Overflows (option : CommandOption) : Prop :=
  ∃ n, integerOf .reloadTime option = some n ∧ FitsLong n ∧ ¬ FitsLong (n * 1000)

variable (support : ArgumentSupport) {args : CommandlineArgsSpy} {option : CommandOption}
  {options : List CommandOption}

/-- One more option at the start counts for what the others leave open. -/
theorem settled_cons :
    settled support (option :: options) args =
      settled support options (settled support [option] args) := by
  simp only [settled, latest_cons, latest_nil, Option.none_or, Option.map_or, Option.getD_or]

/-! ## One step of the loop -/

theorem argOf_of_ne {index : OptionIndex} (h : option.index ≠ index) : argOf index option = none :=
  if_neg h

theorem integerOf_of_ne {index : OptionIndex} (h : option.index ≠ index) :
    integerOf index option = none := by
  rw [integerOf, argOf_of_ne h, Option.bind_none]

/-- A numeric option that has passed its check denotes an integer. -/
theorem exists_integerOf (h : Arg.numeric option = true) :
    ∃ arg n, option.arg = some arg ∧ integerOf option.index option = some n ∧
      DenotesInteger arg n := by
  cases harg : option.arg with
  | none => simp [Arg.numeric, harg] at h
  | some arg =>
      obtain ⟨n, hn⟩ := (numeric_iff harg).mp h
      refine ⟨arg, n, rfl, ?_, hn⟩
      rw [integerOf, argOf, if_pos rfl, harg]
      exact hn

/-- The domain is compared as a `long`; a number that is none is refused as well. -/
theorem handleOption_domain {arg : String} {n : ℤ} (h : DenotesInteger arg n) :
    handleOption support args .domain arg =
      if 0 ≤ n ∧ n ≤ maxDomainId then .returned (.ok { args with domain := n.toNat })
      else .returned (.error .incorrectArgument) := by
  rw [handleOption, stol_of_denotes h]
  by_cases hn : 0 ≤ n ∧ n ≤ maxDomainId
  · have hfits : FitsLong n := by
      simp only [maxDomainId] at hn
      simp only [FitsLong]
      omega
    rw [if_pos hfits, if_pos hn]
    exact if_neg (by omega)
  · rw [if_neg hn]
    by_cases hfits : FitsLong n
    · rw [if_pos hfits]
      exact if_pos (by omega)
    · rw [if_neg hfits]

/-- What an option that has passed its check does to the loop. -/
inductive Handled (args : CommandlineArgsSpy) (option : CommandOption) :
    Outcome (Except ProcessReturnCode CommandlineArgsSpy) → Prop
  | taken (h : Taken option) : Handled args option (.returned (.ok (settled support [option] args)))
  | refused (h : Refused option) : Handled args option (.returned (.error .incorrectArgument))
  | thrown (h : OutOfRange option) : Handled args option .thrown
  | undefined (h : Overflows option) : Handled args option .undefined

/-- Options without a number in them. -/
theorem taken_of_ne (hknown : option.index ≠ .unknownOpt) (hdomain : option.index ≠ .domain)
    (htime : option.index ≠ .reloadTime) : Taken option where
  known := hknown
  domain n hn := by simp [integerOf_of_ne hdomain] at hn
  time n hn := by simp [integerOf_of_ne htime] at hn

theorem handled_domain (hcheck : Arg.numeric option = true) (hindex : option.index = .domain) :
    Handled support args option
      (handleOption support args option.index (option.arg.getD "")) := by
  obtain ⟨arg, n, harg, hinteger, hn⟩ := exists_integerOf hcheck
  have htime : integerOf .reloadTime option = none := integerOf_of_ne (by simp [hindex])
  rw [hindex] at hinteger
  rw [hindex, harg, Option.getD_some, handleOption_domain support hn]
  split
  · next hrange =>
      have htaken : Taken option := by
        refine ⟨by simp [hindex], ?_, by simp [htime]⟩
        intro m hm
        cases hinteger.symm.trans hm
        exact hrange
      have hsettled : settled support [option] args = { args with domain := n.toNat } := by
        simp [settled, latest_cons, argOf, filterOf, verbosityOf, hinteger, hindex, htime]
      rw [← hsettled]
      exact .taken htaken
  · next hrange => exact .refused (.inr ⟨n, hinteger, hrange⟩)

theorem handled_reloadTime (hcheck : Arg.numeric option = true)
    (hindex : option.index = .reloadTime) :
    Handled support args option
      (handleOption support args option.index (option.arg.getD "")) := by
  obtain ⟨arg, n, harg, hinteger, hn⟩ := exists_integerOf hcheck
  have hdomain : integerOf .domain option = none := integerOf_of_ne (by simp [hindex])
  rw [hindex] at hinteger
  rw [hindex, harg, Option.getD_some, handleOption_reloadTime support hn]
  by_cases hfits : FitsLong n
  · rw [if_neg (not_not.mpr hfits)]
    by_cases hmul : FitsLong (n * 1000)
    · rw [if_neg (not_not.mpr hmul)]
      have htaken : Taken option := by
        refine ⟨by simp [hindex], by simp [hdomain], ?_⟩
        intro m hm
        cases hinteger.symm.trans hm
        exact ⟨hfits, hmul⟩
      have hsettled : settled support [option] args =
          { args with reloadTime := BitVec.ofInt 32 (n * 1000) } := by
        simp [settled, latest_cons, argOf, filterOf, verbosityOf, hinteger, hindex, hdomain]
      rw [← hsettled]
      exact .taken htaken
    · rw [if_pos hmul]
      exact .undefined ⟨n, hinteger, hfits, hmul⟩
  · rw [if_pos hfits]
    exact .thrown ⟨n, hinteger, hfits⟩

/-- The options without a number: their checks leave nothing to refuse. -/
theorem handled_setting (hcheck : checkArg support option = true)
    (hindex : option.index ∉ [.unknownOpt, .domain, .reloadTime]) :
    Handled support args option
      (handleOption support args option.index (option.arg.getD "")) := by
  simp only [List.mem_cons, List.not_mem_nil, or_false, not_or] at hindex
  obtain ⟨hknown, hdomain, htime⟩ := hindex
  have hsettled : handleOption support args option.index (option.arg.getD "") =
      .returned (.ok (settled support [option] args)) := by
    have hdomain' := integerOf_of_ne hdomain
    have htime' := integerOf_of_ne htime
    obtain ⟨index, arg⟩ := option
    cases index with
    | unknownOpt => exact absurd rfl hknown
    | domain => exact absurd rfl hdomain
    | reloadTime => exact absurd rfl htime
    | help =>
        simp [handleOption, settled, latest_cons, argOf, filterOf, verbosityOf, hdomain', htime']
    | version =>
        simp [handleOption, settled, latest_cons, argOf, filterOf, verbosityOf, hdomain', htime']
    | activateDebug =>
        simp [handleOption, settled, latest_cons, argOf, filterOf, verbosityOf, hdomain', htime']
    | configurationFile =>
        cases arg with
        | none => simp [checkArg, Arg.readableFile] at hcheck
        | some arg =>
            simp [handleOption, settled, latest_cons, argOf, filterOf, verbosityOf, hdomain',
              htime']
    | logFilter =>
        cases arg with
        | none => simp [checkArg, Arg.string] at hcheck
        | some arg =>
            simp [handleOption, settled, latest_cons, argOf, filterOf, verbosityOf, hdomain',
              htime']
    | logVerbosity =>
        cases arg with
        | none => simp [checkArg, Arg.logKindCorrectArgument, Arg.validOptions] at hcheck
        | some arg =>
            have hmem : arg ∈ support.stringVectorLogKind := by
              simpa [checkArg, Arg.logKindCorrectArgument, Arg.validOptions] using hcheck
            obtain ⟨kind, hkind⟩ :=
              Option.isSome_iff_exists.mp (support.fromStringLogKind_isSome arg hmem)
            simp [handleOption, settled, latest_cons, argOf, filterOf, verbosityOf, hkind, hdomain',
              htime']
  rw [hsettled]
  exact .taken (taken_of_ne hknown hdomain htime)

/-- Every option that has passed its check. -/
theorem handled (hcheck : checkArg support option = true) :
    Handled support args option
      (handleOption support args option.index (option.arg.getD "")) := by
  by_cases hindex : option.index ∉ [.unknownOpt, .domain, .reloadTime]
  · exact handled_setting support hcheck hindex
  · simp only [not_not, List.mem_cons, List.not_mem_nil, or_false] at hindex
    rcases hindex with hunknown | hdomain | htime
    · rw [hunknown]
      exact .refused (.inl hunknown)
    · exact handled_domain support (by simpa [checkArg, hdomain] using hcheck) hdomain
    · exact handled_reloadTime support (by simpa [checkArg, htime] using hcheck) htime

/-! ## No option is handled in two ways -/

theorem Taken.not_refused (h : Taken option) : ¬ Refused option := by
  intro hrefused
  rcases hrefused with hunknown | ⟨n, hn, hrange⟩
  · exact h.known hunknown
  · exact hrange (h.domain n hn)

theorem Taken.not_outOfRange (h : Taken option) : ¬ OutOfRange option := by
  intro hrange
  obtain ⟨n, hn, hfits⟩ := hrange
  exact hfits (h.time n hn).1

theorem Taken.not_overflows (h : Taken option) : ¬ Overflows option := by
  intro hoverflows
  obtain ⟨n, hn, -, hmul⟩ := hoverflows
  exact hmul (h.time n hn).2

/-- A refused option is not the one of the reload period. -/
theorem Refused.integerOf_reloadTime (h : Refused option) :
    integerOf .reloadTime option = none := by
  apply integerOf_of_ne
  intro hindex
  rcases h with hunknown | ⟨n, hn, -⟩
  · simp [hindex] at hunknown
  · rw [integerOf_of_ne (by simp [hindex])] at hn
    cases hn

theorem OutOfRange.not_overflows (h : OutOfRange option) : ¬ Overflows option := by
  intro hoverflows
  obtain ⟨n, hn, hrange⟩ := h
  obtain ⟨m, hm, hfits, -⟩ := hoverflows
  cases hn.symm.trans hm
  exact hrange hfits

theorem Refused.not_outOfRange (h : Refused option) : ¬ OutOfRange option := by
  intro hrange
  obtain ⟨n, hn, -⟩ := hrange
  cases h.integerOf_reloadTime.symm.trans hn

theorem Refused.not_overflows (h : Refused option) : ¬ Overflows option := by
  intro hoverflows
  obtain ⟨n, hn, -⟩ := hoverflows
  cases h.integerOf_reloadTime.symm.trans hn

theorem Handled.unique {result result' : Outcome (Except ProcessReturnCode CommandlineArgsSpy)}
    (h : Handled support args option result) (h' : Handled support args option result') :
    result = result' := by
  cases h with
  | taken h =>
      cases h' with
      | taken => rfl
      | refused h' => exact absurd h' h.not_refused
      | thrown h' => exact absurd h' h.not_outOfRange
      | undefined h' => exact absurd h' h.not_overflows
  | refused h =>
      cases h' with
      | taken h' => exact absurd h h'.not_refused
      | refused => rfl
      | thrown h' => exact absurd h' h.not_outOfRange
      | undefined h' => exact absurd h' h.not_overflows
  | thrown h =>
      cases h' with
      | taken h' => exact absurd h h'.not_outOfRange
      | refused h' => exact absurd h h'.not_outOfRange
      | thrown => rfl
      | undefined h' => exact absurd h' h.not_overflows
  | undefined h =>
      cases h' with
      | taken h' => exact absurd h h'.not_overflows
      | refused h' => exact absurd h h'.not_overflows
      | thrown h' => exact absurd h h'.not_overflows
      | undefined => rfl

theorem handleOption_eq {result : Outcome (Except ProcessReturnCode CommandlineArgsSpy)}
    (hcheck : checkArg support option = true) (h : Handled support args option result) :
    handleOption support args option.index (option.arg.getD "") = result :=
  (handled support hcheck).unique support h

/-! ## The loop -/

/-- How the loop over the options ends. -/
inductive LoopEnds (args : CommandlineArgsSpy) (options : List CommandOption) :
    Outcome (ProcessReturnCode × CommandlineArgsSpy) → Prop
  | finished (h : ∀ option ∈ options, Taken option) :
      LoopEnds args options (.returned (.success, settled support options args))
  | refused (pre : List CommandOption) (option : CommandOption) (h : pre ++ [option] <+: options)
      (htaken : ∀ option ∈ pre, Taken option) (hlast : Refused option) :
      LoopEnds args options (.returned (.incorrectArgument, settled support pre args))
  | thrown (pre : List CommandOption) (option : CommandOption) (h : pre ++ [option] <+: options)
      (htaken : ∀ option ∈ pre, Taken option) (hlast : OutOfRange option) :
      LoopEnds args options .thrown
  | undefined (pre : List CommandOption) (option : CommandOption) (h : pre ++ [option] <+: options)
      (htaken : ∀ option ∈ pre, Taken option) (hlast : Overflows option) :
      LoopEnds args options .undefined

/-- A loop that goes on after its first option. -/
theorem LoopEnds.cons {outcome : Outcome (ProcessReturnCode × CommandlineArgsSpy)}
    (hfirst : Taken option)
    (h : LoopEnds support (settled support [option] args) options outcome) :
    LoopEnds support args (option :: options) outcome := by
  cases h with
  | finished hrest =>
      rw [← settled_cons]
      exact .finished (List.forall_mem_cons.mpr ⟨hfirst, hrest⟩)
  | refused pre last hpre hrest hlast =>
      rw [← settled_cons]
      exact .refused (option :: pre) last (List.cons_prefix_cons.mpr ⟨rfl, hpre⟩)
        (List.forall_mem_cons.mpr ⟨hfirst, hrest⟩) hlast
  | thrown pre last hpre hrest hlast =>
      exact .thrown (option :: pre) last (List.cons_prefix_cons.mpr ⟨rfl, hpre⟩)
        (List.forall_mem_cons.mpr ⟨hfirst, hrest⟩) hlast
  | undefined pre last hpre hrest hlast =>
      exact .undefined (option :: pre) last (List.cons_prefix_cons.mpr ⟨rfl, hpre⟩)
        (List.forall_mem_cons.mpr ⟨hfirst, hrest⟩) hlast

theorem loopEnds_parseOptions (hchecks : ∀ option ∈ options, checkArg support option = true)
    (args : CommandlineArgsSpy) :
    LoopEnds support args options (parseOptions support args options) := by
  induction options generalizing args with
  | nil => exact .finished (by simp)
  | cons option options ih =>
      obtain ⟨hcheck, hchecks⟩ := List.forall_mem_cons.mp hchecks
      have hfirst : [] ++ [option] <+: option :: options := ⟨options, rfl⟩
      have hhandled : Handled support args option _ := handled support hcheck
      rw [parseOptions]
      generalize handleOption support args option.index (option.arg.getD "") = result
        at hhandled ⊢
      cases hhandled with
      | taken h => exact (ih hchecks _).cons support h
      | refused h => exact .refused [] option hfirst (by simp) h
      | thrown h => exact .thrown [] option hfirst (by simp) h
      | undefined h => exact .undefined [] option hfirst (by simp) h

/-- The loop comes to the first option that it does not take. -/
theorem parseOptions_append {pre rest : List CommandOption}
    (hchecks : ∀ option ∈ pre, checkArg support option = true)
    (htaken : ∀ option ∈ pre, Taken option) (args : CommandlineArgsSpy) :
    parseOptions support args (pre ++ rest) =
      parseOptions support (settled support pre args) rest := by
  induction pre generalizing args with
  | nil => rfl
  | cons option pre ih =>
      obtain ⟨hcheck, hchecks⟩ := List.forall_mem_cons.mp hchecks
      obtain ⟨hfirst, htaken⟩ := List.forall_mem_cons.mp htaken
      have hrest := ih hchecks htaken (settled support [option] args)
      rw [← settled_cons] at hrest
      rw [List.cons_append, parseOptions, handleOption_eq support hcheck (.taken hfirst)]
      exact hrest

/-- There the loop ends, unless it goes on after all. -/
theorem parseOptions_stop {pre post : List CommandOption}
    {result : Outcome (Except ProcessReturnCode CommandlineArgsSpy)}
    (hchecks : ∀ option' ∈ pre ++ [option] ++ post, checkArg support option' = true)
    (htaken : ∀ option ∈ pre, Taken option) :
    Handled support (settled support pre args) option result →
    parseOptions support args (pre ++ [option] ++ post) =
      match result with
      | .returned (.ok commandlineArgs) => parseOptions support commandlineArgs post
      | .returned (.error code) => .returned (code, settled support pre args)
      | .thrown => .thrown
      | .undefined => .undefined := by
  intro h
  simp only [List.forall_mem_append, List.forall_mem_singleton] at hchecks
  have hhandled := handleOption_eq support hchecks.1.2 h
  rw [List.append_assoc, parseOptions_append support hchecks.1.1 htaken, List.singleton_append]
  cases h <;> simp only [parseOptions, hhandled]

theorem parseOptions_of_loopEnds {outcome : Outcome (ProcessReturnCode × CommandlineArgsSpy)}
    (hchecks : ∀ option ∈ options, checkArg support option = true)
    (h : LoopEnds support args options outcome) : parseOptions support args options = outcome := by
  cases h with
  | finished htaken =>
      rw [← List.append_nil options, parseOptions_append support hchecks htaken,
        List.append_nil]
      rfl
  | refused pre option hpre htaken hlast =>
      obtain ⟨post, rfl⟩ := hpre
      exact parseOptions_stop support hchecks htaken (.refused hlast)
  | thrown pre option hpre htaken hlast =>
      obtain ⟨post, rfl⟩ := hpre
      exact parseOptions_stop support hchecks htaken (.thrown hlast)
  | undefined pre option hpre htaken hlast =>
      obtain ⟨post, rfl⟩ := hpre
      exact parseOptions_stop support hchecks htaken (.undefined hlast)

/-! ## An outcome for every command line -/

/-- The other arguments are the words of one command. -/
def withCommand (line : CommandLine) (args : CommandlineArgsSpy) : CommandlineArgsSpy :=
  { args with oneShotCommand := args.oneShotCommand ++ line.nonOptions }

/-- How `parse_arguments` ends. A check that fails comes first, then the question for the help
and the one for the version, wherever they stand on the line. -/
inductive Parses (line : CommandLine) (args : CommandlineArgsSpy) :
    Outcome (ProcessReturnCode × CommandlineArgsSpy) → Prop
  | illegal (h : ∃ option ∈ line.options, checkArg support option = false) :
      Parses line args (.returned (.incorrectArgument, args))
  | help (hchecks : ∀ option ∈ line.options, checkArg support option = true)
      (h : ∃ option ∈ line.options, option.index = .help) :
      Parses line args (.returned (.helpArgument, withCommand line args))
  | version (hchecks : ∀ option ∈ line.options, checkArg support option = true)
      (hhelp : ∀ option ∈ line.options, option.index ≠ .help)
      (h : ∃ option ∈ line.options, option.index = .version) :
      Parses line args (.returned (.versionArgument, withCommand line args))
  | loop {outcome} (hchecks : ∀ option ∈ line.options, checkArg support option = true)
      (hhelp : ∀ option ∈ line.options, option.index ≠ .help)
      (hversion : ∀ option ∈ line.options, option.index ≠ .version)
      (h : LoopEnds support (withCommand line args) line.options outcome) :
      Parses line args outcome

theorem parses_parseArguments (line : CommandLine) (args : CommandlineArgsSpy) :
    Parses support line args (parseArguments support line args) := by
  unfold parseArguments
  split
  · next hall =>
      have hchecks := List.all_eq_true.mp hall
      split
      · next hhelp => exact .help hchecks (by simpa using hhelp)
      · next hhelp =>
          have hhelp : ∀ option ∈ line.options, option.index ≠ .help := by simpa using hhelp
          split
          · next hversion => exact .version hchecks hhelp (by simpa using hversion)
          · next hversion =>
              exact .loop hchecks hhelp (by simpa using hversion)
                (loopEnds_parseOptions support hchecks _)
  · next hall => exact .illegal (by simpa using hall)

theorem parseArguments_of_parses {line : CommandLine}
    {outcome : Outcome (ProcessReturnCode × CommandlineArgsSpy)}
    (h : Parses support line args outcome) : parseArguments support line args = outcome := by
  unfold parseArguments
  cases h with
  | illegal h => rw [if_neg (by simpa using h)]
  | help hchecks h =>
      rw [if_pos (List.all_eq_true.mpr hchecks), if_pos (by simpa using h)]
      rfl
  | version hchecks hhelp h =>
      rw [if_pos (List.all_eq_true.mpr hchecks), if_neg (by simpa using hhelp),
        if_pos (by simpa using h)]
      rfl
  | loop hchecks hhelp hversion h =>
      rw [if_pos (List.all_eq_true.mpr hchecks), if_neg (by simpa using hhelp),
        if_neg (by simpa using hversion)]
      exact parseOptions_of_loopEnds support hchecks h

/-- The outcomes of `parse_arguments` are exactly these: on success every setting is the one of
the last option that sets it. -/
theorem parseArguments_eq_iff (line : CommandLine) (args : CommandlineArgsSpy)
    (outcome : Outcome (ProcessReturnCode × CommandlineArgsSpy)) :
    parseArguments support line args = outcome ↔ Parses support line args outcome := by
  constructor
  · intro h
    rw [← h]
    exact parses_parseArguments support line args
  · intro h
    exact parseArguments_of_parses support h

end FastDdsSpy
