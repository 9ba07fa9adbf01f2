import SchemaLint.CommandLine.Options
import SchemaLint.Terminal.Console
import SchemaLint.Text.LineBreak
import SchemaLint.Trace

/-! A run of the command line, from its arguments and the bytes of the script to
the two output streams and the exit code. It goes in three steps, so that the
script is only opened when the options are in order, and only read when the rule
selection is. -/
namespace SchemaLint.CommandLine
open Terminal

/-- Whether each output stream keeps escape sequences. -/
structure Streams where
  outKeepsEscapes : Bool := false
  errKeepsEscapes : Bool := false
  deriving DecidableEq, Repr

structure Exit where
  code : Nat
  stdout : String
  stderr : String
  deriving DecidableEq, Repr

def usage : String :=
  "Usage: ddllint [OPTIONS] [SCRIPT]\n" ++ "Try 'ddllint --help' for help.\n" ++ "\n"

def helpText : String :=
  "Usage: ddllint [OPTIONS] [SCRIPT]\n" ++
  "\n" ++
  "  Lint a DDL script against the house naming and tablespace conventions.\n" ++
  "\n" ++
  "  SCRIPT is a file of statements separated by '/', or '-' for stdin. Exits with\n" ++
  "  1 if any statement has an error, 2 on a bad rule selection.\n" ++
  "\n" ++
  "Options:\n" ++
  "  --disable RULE  Skip a rule\n" ++
  "  --only RULE     Run only these rules\n" ++
  "  --no-colors     Disable colored output\n" ++
  "  -v, --verbose   Log progress to stderr (-vv for debug)\n" ++
  "  --list-rules    Print the rule catalog and exit\n" ++
  "  --version       Show the version and exit.\n" ++
  "  --help          Show this message and exit.\n"

def programVersion : String := "0.1.0"

def Notice.text : Notice → String
  | .help => helpText
  | .version => "ddllint, version " ++ programVersion ++ "\n"

/-- The exit for a usage fault, after what was already traced. -/
def UsageFault.exit (streams : Streams) (traced : String) (fault : UsageFault) : Exit :=
  ⟨2, "", traced ++ (if fault.showsUsage then usage else "") ++
    printed streams.errKeepsEscapes ("Error: " ++ fault.message)⟩

/-- The catalog as a list for the user. -/
def catalogText (catalog : Catalog) : String :=
  String.join (catalog.map fun definition =>
    definition.ruleId ++ " (" ++ definition.severity.name ++ ")\n" ++
    "    fail: " ++ definition.failure ++ "\n" ++
    "    pass: " ++ definition.success ++ "\n")

namespace Options

def selection (options : Options) : Selection :=
  { disabled := options.disabled
    only := if options.only.isEmpty then none else some options.only }

/-- The options, or the exit of a run that stops at them. -/
def prepare (streams : Streams) (arguments : List String) : Except Exit Options :=
  match ofArguments arguments with
  | .error fault => .error (fault.exit streams "")
  | .ok options =>
    match options.notice with
    | some notice => .error ⟨0, notice.text, ""⟩
    | none => .ok options

/-- The linter that the options ask for, or the exit of a run that does not come
to read its script. -/
def linter (streams : Streams) (options : Options) : Except Exit Linter :=
  match options.operands.drop 1 with
  | first :: others => .error ((UsageFault.extraOperands first others).exit streams "")
  | [] =>
    if options.listRules then .error ⟨0, catalogText Catalog.standard, ""⟩
    else
      match Linter.build Catalog.standard Registry.standard { selection := options.selection } with
      | .ok linter => .ok linter
      | .error fault =>
        .error ⟨2, "", Trace.output options.verbosity [.configFault fault] ++
          printed streams.errKeepsEscapes ("Configuration error: " ++ fault.message)⟩

end Options

def summary (report : Report) : String :=
  s!"{report.total} statement(s): {report.passed} passed, {report.count .error} error(s), " ++
    s!"{report.count .warning} warning(s)"

/-- Lints the bytes of a script. -/
def lintBytes (streams : Streams) (options : Options) (linter : Linter) (bytes : List UInt8) :
    Exit :=
  let loaded := Trace.output options.verbosity [.rulesLoaded (linter.catalog.map (·.ruleId))]
  match Text.Utf8.decode bytes with
  | .error fault => (UsageFault.notUtf8 fault).exit streams loaded
  | .ok chars =>
    let script := String.ofList (Text.markBreaks '\n' chars)
    let report := linter.lint script
    { code := if report.hasErrors then 1 else 0
      stdout := Console.output ⟨options.colored, streams.outKeepsEscapes⟩ (linter.signals script)
      stderr := loaded ++ Trace.output options.verbosity (linter.trace script) ++
        if report.total > 0 then printed streams.errKeepsEscapes (summary report) else "" }

/-- Opens the script. Standard input can always be opened. -/
def Inputs.openTarget (inputs : Inputs) : Target → Except UsageFault (List UInt8)
  | .stdin => .ok inputs.stdin
  | .file name => (inputs.file name).mapError (.unreadable name)

/-- A whole run. -/
def run (streams : Streams) (inputs : Inputs) (arguments : List String) : Exit :=
  match Options.prepare streams arguments with
  | .error exit => exit
  | .ok options =>
    match inputs.openTarget options.target with
    | .error fault => fault.exit streams ""
    | .ok bytes =>
      match options.linter streams with
      | .error exit => exit
      | .ok linter => lintBytes streams options linter bytes

end SchemaLint.CommandLine
