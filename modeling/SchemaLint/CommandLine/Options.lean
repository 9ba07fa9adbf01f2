import SchemaLint.CommandLine.Files
import SchemaLint.Text.Quoted
import SchemaLint.Text.Utf8

/-! The options and operands of the command line. -/
namespace SchemaLint.CommandLine

/-- What the user got wrong. -/
inductive UsageFault where
  | unknownOption (name : String)
  | missingValue (name : String)
  | unexpectedValue (name : String)
  | unreadable (name : String) (fault : OpenFault)
  | extraOperands (first : String) (others : List String)
  | notUtf8 (fault : Text.Utf8.Fault)
  deriving DecidableEq, Repr

namespace UsageFault

def message : UsageFault → String
  | .unknownOption name => s!"No such option {Text.quoted name}."
  | .missingValue name => s!"Option {Text.quoted name} requires an argument."
  | .unexpectedValue name => s!"Option {Text.quoted name} does not take a value."
  | .unreadable name fault => s!"Invalid value for '[SCRIPT]': '{name}': {fault.message}"
  | .extraOperands first [] => s!"Got unexpected extra argument ({first})"
  | .extraOperands first others =>
    "Got unexpected extra arguments (" ++ " ".intercalate (first :: others) ++ ")"
  | .notUtf8 fault =>
    s!"Invalid value for SCRIPT: not valid UTF-8 ({fault.reason.message} at byte {fault.offset})"

/-- A value that is missing or too much is reported without the usage. -/
def showsUsage : UsageFault → Bool
  | .missingValue _ | .unexpectedValue _ => false
  | _ => true

end UsageFault

/-- A text that is asked for instead of a run. -/
inductive Notice where
  | help
  | version
  deriving DecidableEq, Repr

structure Options where
  disabled : List String := []
  only : List String := []
  colored : Bool := true
  verbosity : Nat := 0
  listRules : Bool := false
  /-- The first notice that was asked for. -/
  notice : Option Notice := none
  operands : List String := []
  deriving DecidableEq, Repr

/-- Options without a value. -/
inductive Flag where
  | noColors
  | verbose
  | listRules
  | notice (notice : Notice)
  deriving DecidableEq, Repr

/-- Options with a value, which is the id of a rule. -/
inductive RuleOption where
  | disable
  | only
  deriving DecidableEq, Repr

def Flag.ofName? : String → Option Flag
  | "--no-colors" => some .noColors
  | "--verbose" => some .verbose
  | "--list-rules" => some .listRules
  | "--version" => some (.notice .version)
  | "--help" => some (.notice .help)
  | _ => none

def RuleOption.ofName? : String → Option RuleOption
  | "--disable" => some .disable
  | "--only" => some .only
  | _ => none

namespace Options

def raise (options : Options) : Flag → Options
  | .noColors => { options with colored := false }
  | .verbose => { options with verbosity := options.verbosity + 1 }
  | .listRules => { options with listRules := true }
  | .notice notice => { options with notice := options.notice.or (some notice) }

def addRule (options : Options) (ruleId : String) : RuleOption → Options
  | .disable => { options with disabled := options.disabled ++ [ruleId] }
  | .only => { options with only := options.only ++ [ruleId] }

def addOperands (options : Options) (operands : List String) : Options :=
  { options with operands := options.operands ++ operands }

/-- Short options that share one dash. -/
def raiseCluster (options : Options) : List Char → Except UsageFault Options
  | [] => .ok options
  | 'v' :: rest => (options.raise .verbose).raiseCluster rest
  | c :: _ => .error (.unknownOption (String.ofList ['-', c]))

end Options

/-- An argument by its form. -/
inductive Argument where
  | operand
  | endOfOptions
  | long (name : String) (value? : Option String)
  | cluster (letters : List Char)
  deriving DecidableEq, Repr

namespace Argument

/-- The value of a long option may stand after an equals sign. A lone dash is an
operand. -/
def ofString (text : String) : Argument :=
  match text.toList with
  | ['-', '-'] => .endOfOptions
  | '-' :: '-' :: letters =>
    let name := String.ofList ('-' :: '-' :: letters.takeWhile (· != '='))
    match letters.dropWhile (· != '=') with
    | [] => .long name none
    | _ :: value => .long name (some (String.ofList value))
  | '-' :: c :: letters => .cluster (c :: letters)
  | _ => .operand

end Argument

/-- Reads the arguments from left to right on top of what is known. The first
fault is reported. -/
def readArguments (options : Options) : List String → Except UsageFault Options
  | [] => .ok options
  | argument :: rest =>
    match Argument.ofString argument with
    | .operand => readArguments (options.addOperands [argument]) rest
    | .endOfOptions => .ok (options.addOperands rest)
    | .cluster letters =>
      match options.raiseCluster letters with
      | .error fault => .error fault
      | .ok options => readArguments options rest
    | .long name value? =>
      match RuleOption.ofName? name, Flag.ofName? name, value?, rest with
      | some option, _, some value, rest => readArguments (options.addRule value option) rest
      | some option, _, none, value :: rest => readArguments (options.addRule value option) rest
      | some _, _, none, [] => .error (.missingValue name)
      | none, some flag, none, rest => readArguments (options.raise flag) rest
      | none, some _, some _, _ => .error (.unexpectedValue name)
      | none, none, _, _ => .error (.unknownOption name)

def Options.ofArguments (arguments : List String) : Except UsageFault Options :=
  readArguments {} arguments

/-- Where the script is read from. -/
inductive Target where
  | stdin
  | file (name : String)
  deriving DecidableEq, Repr

def Options.target (options : Options) : Target :=
  match options.operands with
  | [] | "-" :: _ => .stdin
  | name :: _ => .file name

end SchemaLint.CommandLine
