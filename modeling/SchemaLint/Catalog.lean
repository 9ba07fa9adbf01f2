/-! Catalogs: which rules are run, in which order, how bad their violations are
and what is said about them. -/
namespace SchemaLint

inductive Severity where
  | error
  | warning
  deriving DecidableEq, Repr

namespace Severity

def name : Severity → String
  | .error => "error"
  | .warning => "warning"

def ofName? : String → Option Severity
  | "error" => some .error
  | "warning" => some .warning
  | _ => none

@[simp] theorem ofName?_name (severity : Severity) : ofName? severity.name = some severity := by
  cases severity <;> rfl

end Severity

/-- An entry of a catalog. -/
structure Definition where
  ruleId : String
  severity : Severity
  failure : String
  success : String
  deriving DecidableEq, Repr

/-- The message for a violation, with the remark after it if there is one. -/
def Definition.message (definition : Definition) (remark? : Option String) : String :=
  match remark? with
  | none | some "" => definition.failure
  | some remark => definition.failure ++ " " ++ remark

abbrev Catalog := List Definition

def Catalog.standard : Catalog :=
  [⟨"create-table-tablespace", .error, "The tablespace is invalid.",
    "The tablespace is valid for all the create table statements."⟩,
   ⟨"create-index-tablespace", .error, "The tablespace is invalid.",
    "The tablespace is valid for all the create index statements."⟩,
   ⟨"temp-table-naming", .error, "Table name must contain a temp_ prefix for temp tables.",
    "All the temp table names are correct."⟩,
   ⟨"no-double-quotes", .warning, "Double quotes should be avoided in the query.",
    "No double-quotes found in the query."⟩,
   ⟨"constraint-naming", .error,
    "Invalid constraint name, please refer documentation for valid constraint names.",
    "All constraint names are correct."⟩]

end SchemaLint
