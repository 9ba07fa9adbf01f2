import SchemaLint.Linter

/-! The trace of a lint run: what happened, told to whoever operates it. -/
namespace SchemaLint

inductive Trace where
  | rulesLoaded (ruleIds : List String)
  | configFault (fault : ConfigFault)
  | emptyScript
  | scriptStarted (statements : Nat)
  | ruleFailed (finding : Finding)
  | scriptLinted (report : Report)

/-- The value of a field. -/
inductive TraceValue where
  | plain (value : Detail)
  | details (value : List (String × Detail))

def Detail.render : Detail → String
  | .text value => Text.quoted value
  | .number value => toString value
  | .texts values => "[" ++ ", ".intercalate (values.map Text.quoted) ++ "]"

namespace TraceValue

/-- A text with one of these is quoted. -/
def needsQuotes (c : Char) : Bool :=
  [' ', '\t', '=', '\r', '\n', Text.doubleQuote, Text.apostrophe].contains c

def render : TraceValue → String
  | .plain (.text value) => if value.toList.any needsQuotes then Text.quoted value else value
  | .plain value => value.render
  | .details fields =>
    "\x7b" ++ ", ".intercalate (fields.map fun (key, value) =>
      Text.quoted key ++ ": " ++ value.render) ++ "\x7d"

end TraceValue

namespace Trace

/-- How often the run must be asked to be verbose for the event to be shown. -/
def verbosity : Trace → Nat
  | .configFault _ => 0
  | .emptyScript | .scriptStarted _ | .scriptLinted _ => 1
  | .rulesLoaded _ | .ruleFailed _ => 2

def level : Trace → String
  | .configFault _ => "error"
  | .emptyScript | .scriptStarted _ | .scriptLinted _ => "info"
  | .rulesLoaded _ | .ruleFailed _ => "debug"

def name : Trace → String
  | .rulesLoaded _ => "rules_loaded"
  | .configFault _ => "rule_configuration_error"
  | .emptyScript => "empty_script"
  | .scriptStarted _ => "validating_script"
  | .ruleFailed _ => "rule_failed"
  | .scriptLinted _ => "script_validated"

/-- The part of the linter that speaks. -/
def source : Trace → String
  | .rulesLoaded _ | .configFault _ | .ruleFailed _ => "ddllint.engine"
  | .emptyScript | .scriptStarted _ | .scriptLinted _ => "ddllint.validator"

/-- The fields in alphabetical order. -/
def fields : Trace → List (String × TraceValue)
  | .rulesLoaded ruleIds => [("rules", .plain (.texts ruleIds))]
  | .configFault fault =>
    [("message", .plain (.text fault.message)), ("rule_id", .plain (.text fault.ruleId))]
  | .emptyScript => []
  | .scriptStarted statements => [("statements", .plain (.number statements))]
  | .ruleFailed finding =>
    [("details", .details finding.violation.details),
     ("rule_id", .plain (.text finding.definition.ruleId)),
     ("severity", .plain (.text finding.definition.severity.name))]
  | .scriptLinted report =>
    [("errors", .plain (.number (report.count .error))), ("passed", .plain (.number report.passed)),
     ("total", .plain (.number report.total)), ("warnings", .plain (.number (report.count .warning)))]

def padded (width : Nat) (text : String) : String :=
  String.ofList (text.toList.rightpad width ' ')

def line (trace : Trace) : String :=
  "[" ++ padded 9 trace.level ++ "] " ++ padded 30 trace.name ++ " [" ++ trace.source ++ "]" ++
    String.join (trace.fields.map fun (key, value) => " " ++ key ++ "=" ++ value.render) ++ "\n"

/-- The lines that a run of some verbosity shows. -/
def output (verbose : Nat) (traces : List Trace) : String :=
  String.join ((traces.filter fun trace => decide (trace.verbosity ≤ verbose)).map line)

end Trace

/-- What happens while a script is linted. -/
def Linter.trace (linter : Linter) (script : String) : List Trace :=
  if script = "" then [.emptyScript]
  else
    let whole := Statement.ofString script
    let statements := Script.statements script
    .scriptStarted statements.length ::
      (statements.flatMap fun statement =>
        (linter.findings (some whole) (.ofString statement)).map .ruleFailed) ++
      [.scriptLinted (linter.lint script)]

end SchemaLint
