import SchemaLint.Constraint.Convention

/-! The causes for which a statement fails a rule. -/
namespace SchemaLint

inductive Violation where
  | missingTablespace
  | tablespaceNotAllowed (allowed : List String)
  | temporaryTable (table : String)
  | droppedInScript (table : String)
  | doubleQuote (position : Nat)
  | misnamed (convention : NamingConvention) (declared expected : String)
  deriving DecidableEq, Repr

/-- A value in the details of a violation. -/
inductive Detail where
  | text (value : String)
  | number (value : Nat)
  | texts (values : List String)
  deriving DecidableEq, Repr

namespace Violation

/-- What is added to the message of the rule. -/
def remark? : Violation → Option String
  | .misnamed convention _ _ =>
    some s!"Fails test for {convention.label}, format should be {convention.format}."
  | _ => none

def details : Violation → List (String × Detail)
  | .missingTablespace => [("pattern", .text "missing_tablespace")]
  | .tablespaceNotAllowed allowed =>
    [("pattern", .text "tablespace_not_allowed"), ("allowed", .texts allowed)]
  | .temporaryTable table => [("pattern", .text "temporary_table"), ("table", .text table)]
  | .droppedInScript table => [("pattern", .text "dropped_in_script"), ("table", .text table)]
  | .doubleQuote position => [("position", .number position)]
  | .misnamed convention declared expected =>
    [("convention", .text convention.label), ("declared", .text declared),
     ("expected", .text expected)]

end Violation
end SchemaLint
