import SchemaLint.Statement
import SchemaLint.Violation

/-! Constraints must be named after their table and column. -/
namespace SchemaLint.Check
open Text

/-- A clause that was found must declare a part of the expected name. -/
def judge? (convention : NamingConvention) : Option (Nat × Clause) → Option Violation
  | none => none
  | some (_, clause) =>
    let declared := trim clause.name
    let expected := convention.expectedName (String.ofList (trim clause.table))
      (String.ofList (trim clause.column))
    if occursIn declared expected.toList then none
    else some (.misnamed convention (String.ofList declared) expected)

/-- Each convention is judged on its own, by what the search for it finds. -/
def misnamedBy (search : NamingConvention → List Char → Option (Nat × Clause))
    (conventions : List NamingConvention) (statement : Statement) : List Violation :=
  conventions.filterMap fun convention => judge? convention (search convention statement.chars)

/-- The first clause of the convention's kind is judged. -/
def misnamed? (statement : Statement) (convention : NamingConvention) : Option Violation :=
  judge? convention (Clause.find? convention.kind statement.chars)

def misnamed (conventions : List NamingConvention) (statement : Statement) : List Violation :=
  misnamedBy (fun convention => Clause.find? convention.kind) conventions statement

theorem misnamed_eq (conventions : List NamingConvention) (statement : Statement) :
    misnamed conventions statement = conventions.filterMap (misnamed? statement) := rfl

end SchemaLint.Check
