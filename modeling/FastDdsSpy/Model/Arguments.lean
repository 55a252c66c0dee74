import FastDdsSpy.Library.Decimals
import Mathlib.Algebra.Order.Ring.Int

/-! # Command line arguments

The checks of the option arguments and `parse_arguments`, on the options that the parser
library has split the command line into. -/

namespace FastDdsSpy

/-- How a computation ends: with a value, with an exception, or with undefined behaviour. -/
inductive Outcome (α : Type*)
  | returned (value : α)
  | thrown
  | undefined
  deriving DecidableEq, Repr

/-! ## Integers of the C library -/

/-- `isspace`, in the C locale. -/
def isSpace (c : Char) : Bool := c = ' ' || ('\t' ≤ c && c ≤ '\r')

/-- The values of `long`. -/
def FitsLong (n : ℤ) : Prop := -2 ^ 63 ≤ n ∧ n < 2 ^ 63

instance (n : ℤ) : Decidable (FitsLong n) := inferInstanceAs (Decidable (_ ∧ _))

/-- The numeral that a conversion to `long` reads, in base 10, and what is left after it. -/
def subject? (text : List Char) : Option (ℤ × List Char) :=
  Decimals.scanInteger? (text.dropWhile isSpace)

/-- `strtol`: the value, brought into the range of `long`, and the text at `endptr`. -/
def strtol (text : List Char) : ℤ × List Char :=
  match subject? text with
  | some (n, rest) => (max (-2 ^ 63) (min n (2 ^ 63 - 1)), rest)
  | none => (0, text)

/-- `std::stol`, which throws when there is no numeral and when it is out of range. -/
def stol (text : List Char) : Outcome ℤ :=
  match subject? text with
  | some (n, _) => if FitsLong n then .returned n else .thrown
  | none => .thrown

/-- The product of two values of `long`. -/
def mulLong (m n : ℤ) : Outcome ℤ := if FitsLong (m * n) then .returned (m * n) else .undefined

/-! ## Options -/

inductive ProcessReturnCode
  | success | helpArgument | versionArgument | incorrectArgument | requiredArgumentFailed
  | executionFailed
  deriving DecidableEq, Repr

inductive VerbosityKind
  | error | warning | info
  deriving DecidableEq, Repr

inductive OptionIndex
  | unknownOpt | help | configurationFile | reloadTime | activateDebug | version | logFilter
  | logVerbosity | domain
  deriving DecidableEq, Repr

/-- An option on the command line; `arg` is absent for a null pointer. -/
structure CommandOption where
  index : OptionIndex
  arg : Option String
  deriving DecidableEq, Repr

/-- The options in their order, and the other arguments. -/
structure CommandLine where
  options : List CommandOption
  nonOptions : List String

structure CommandlineArgsSpy where
  oneShotCommand : List String := []
  filePath : String := ""
  reloadTime : BitVec 32 := 0
  logFilter : VerbosityKind → String :=
    fun kind => if kind = .error then "" else "FASTDDSSPY"
  logVerbosity : VerbosityKind := .warning
  domain : ℕ := 0

/-- The access check on files, and the names of the verbosity kinds that the enumeration
macro of `cpp_utils` generates. It converts every name that it lists. -/
structure ArgumentSupport where
  isFileAccessible : String → Bool
  stringVectorLogKind : List String
  fromStringLogKind : String → Option VerbosityKind
  fromStringLogKind_isSome : ∀ name ∈ stringVectorLogKind, (fromStringLogKind name).isSome = true

/-- `MAX_DOMAIN_ID`. -/
def maxDomainId : ℤ := 232

/-! ## `Arg`

Whether the status is `ARG_OK`. -/

namespace Arg

def string (option : CommandOption) : Bool := option.arg.isSome

/-- `endptr` is the argument itself when nothing was read. -/
def numeric (option : CommandOption) : Bool :=
  option.arg.any fun arg =>
    (strtol arg.toList).2 ≠ arg.toList && (strtol arg.toList).2 = []

def readableFile (support : ArgumentSupport) (option : CommandOption) : Bool :=
  option.arg.any support.isFileAccessible

def validOptions (validOptions : List String) (option : CommandOption) : Bool :=
  option.arg.any fun arg => arg ∈ validOptions

def logKindCorrectArgument (support : ArgumentSupport) (option : CommandOption) : Bool :=
  validOptions support.stringVectorLogKind option

end Arg

/-- The checks in the table `usage`. -/
def checkArg (support : ArgumentSupport) (option : CommandOption) : Bool :=
  match option.index with
  | .configurationFile => Arg.readableFile support option
  | .reloadTime | .domain => Arg.numeric option
  | .logFilter => Arg.string option
  | .logVerbosity => Arg.logKindCorrectArgument support option
  | .unknownOpt | .help | .version | .activateDebug => true

/-! ## `parse_arguments` -/

/-- The `switch` on an option, with its argument: the arguments so far, or the code that is
returned at once. -/
def handleOption (support : ArgumentSupport) (commandlineArgs : CommandlineArgsSpy)
    (index : OptionIndex) (arg : String) : Outcome (Except ProcessReturnCode CommandlineArgsSpy) :=
  match index with
  | .configurationFile => .returned (.ok { commandlineArgs with filePath := arg })
  | .reloadTime =>
    match stol arg.toList with
    | .returned seconds =>
      match mulLong seconds 1000 with
      | .returned milliseconds =>
        .returned (.ok { commandlineArgs with reloadTime := BitVec.ofInt 32 milliseconds })
      | .thrown => .thrown
      | .undefined => .undefined
    | .thrown => .thrown
    | .undefined => .undefined
  | .activateDebug =>
    .returned (.ok { commandlineArgs with
      logFilter := fun kind => if kind = .error then "" else "FASTDDSSPY"
      logVerbosity := .info })
  | .logFilter => .returned (.ok { commandlineArgs with logFilter := fun _ => arg })
  | .logVerbosity =>
    match support.fromStringLogKind arg with
    | some kind => .returned (.ok { commandlineArgs with logVerbosity := kind })
    | none => .thrown
  | .domain =>
    match stol arg.toList with
    | .returned domainValue =>
      if domainValue < 0 ∨ domainValue > maxDomainId then .returned (.error .incorrectArgument)
      else .returned (.ok { commandlineArgs with domain := domainValue.toNat })
    | _ => .returned (.error .incorrectArgument)
  | .unknownOpt => .returned (.error .incorrectArgument)
  | .help | .version => .returned (.ok commandlineArgs)

/-- The loop over the options. An option whose check has passed has the argument it needs. -/
def parseOptions (support : ArgumentSupport) (commandlineArgs : CommandlineArgsSpy) :
    List CommandOption → Outcome (ProcessReturnCode × CommandlineArgsSpy)
  | [] => .returned (.success, commandlineArgs)
  | option :: options =>
    match handleOption support commandlineArgs option.index (option.arg.getD "") with
    | .returned (.ok commandlineArgs) => parseOptions support commandlineArgs options
    | .returned (.error code) => .returned (code, commandlineArgs)
    | .thrown => .thrown
    | .undefined => .undefined

def parseArguments (support : ArgumentSupport) (line : CommandLine)
    (commandlineArgs : CommandlineArgsSpy) : Outcome (ProcessReturnCode × CommandlineArgsSpy) :=
  if line.options.all (checkArg support) then
    let commandlineArgs :=
      { commandlineArgs with
        oneShotCommand := commandlineArgs.oneShotCommand ++ line.nonOptions }
    if line.options.any (·.index = .help) then .returned (.helpArgument, commandlineArgs)
    else if line.options.any (·.index = .version) then
      .returned (.versionArgument, commandlineArgs)
    else parseOptions support commandlineArgs line.options
  else .returned (.incorrectArgument, commandlineArgs)

end FastDdsSpy
