import SchemaLint.Statement
import SchemaLint.Text.Lowercase
import SchemaLint.Violation

/-! Tables that do not outlive the script must carry the prefix for temporary
tables: those created as temporary, and those that the script itself drops. -/
namespace SchemaLint.Check
open Text

/-- The name begins with the prefix once both are in lower case. -/
def hasPrefix (start name : String) : Bool :=
  (lowercase start.toList).isPrefixOf (lowercase name.toList)

def temporary? (start : String) (statement : Statement) : Option Violation :=
  if statement.contains "create temporary table" then
    match statement.nextWord? "create temporary table" with
    | some table => if hasPrefix start table then none else some (.temporaryTable table)
    | none => none
  else none

def dropped? (start : String) (script statement : Statement) : Option Violation :=
  if statement.contains "create table" then
    match statement.nextWord? "create table" with
    | some table =>
      if script.contains ("drop table " ++ table) && !hasPrefix start table then
        some (.droppedInScript table)
      else none
    | none => none
  else none

/-- Without the script only tables created as temporary are looked at. -/
def tempTable? (start : String) (script? : Option Statement) (statement : Statement) :
    Option Violation :=
  (temporary? start statement).or (script?.bind fun script => dropped? start script statement)

end SchemaLint.Check
