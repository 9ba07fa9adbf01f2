import SchemaLint.Catalog
import SchemaLint.Statement

/-! What a lint run finds: the outcomes of each statement, and their counts. -/
namespace SchemaLint

/-- A rule that a statement fails. -/
structure Outcome where
  ruleId : String
  severity : Severity
  message : String
  deriving DecidableEq, Repr

structure StatementResult where
  statement : Statement
  outcomes : List Outcome
  deriving DecidableEq

namespace StatementResult

def passed (result : StatementResult) : Bool := result.outcomes.isEmpty

def successMessage? (result : StatementResult) : Option String :=
  if result.passed then some ("All rules passed. " ++ result.statement.text) else none

def count (severity : Severity) (result : StatementResult) : Nat :=
  result.outcomes.countP (·.severity == severity)

end StatementResult

/-- The result of a script. An empty script is not linted at all. -/
inductive Report where
  | emptyScript
  | linted (results : List StatementResult)
  deriving DecidableEq

namespace Report

def emptyMessage : String := "No SQL text to validate. Paste or load a script first."

def results : Report → List StatementResult
  | .emptyScript => []
  | .linted results => results

def error? : Report → Option String
  | .emptyScript => some emptyMessage
  | .linted _ => none

def total (report : Report) : Nat := report.results.length

def passed (report : Report) : Nat := report.results.countP (·.passed)

def failed (report : Report) : Nat := report.total - report.passed

def outcomes (report : Report) : List Outcome := report.results.flatMap (·.outcomes)

def count (severity : Severity) (report : Report) : Nat :=
  report.outcomes.countP (·.severity == severity)

/-- The script is empty, or some outcome is an error. -/
def hasErrors (report : Report) : Bool := report.error?.isSome || report.count .error > 0

end Report
end SchemaLint
