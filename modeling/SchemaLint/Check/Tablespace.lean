import SchemaLint.Statement
import SchemaLint.Violation

/-! Tables and indexes must be created in an allowed tablespace. -/
namespace SchemaLint.Check

/-- A statement with the keyword must name a tablespace, and one of the allowed
names must occur in it anywhere. -/
def tablespace? (keyword : String) (allowed : List String) (statement : Statement) :
    Option Violation :=
  if !statement.contains keyword then none
  else if !statement.contains "tablespace" then some .missingTablespace
  else if !statement.containsAny allowed then some (.tablespaceNotAllowed allowed)
  else none

end SchemaLint.Check
