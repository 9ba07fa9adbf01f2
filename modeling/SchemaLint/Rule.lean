import SchemaLint.Check.ConstraintName
import SchemaLint.Check.Tablespace
import SchemaLint.Check.TempTable
import SchemaLint.Policy

/-! The rules, and the registry in which they are found by id. -/
namespace SchemaLint

inductive Rule where
  | tableTablespace
  | indexTablespace
  | tempTableName
  | noDoubleQuotes
  | constraintName (conventions : List NamingConvention)
  deriving DecidableEq, Repr

namespace Rule

def id : Rule → String
  | .tableTablespace => "create-table-tablespace"
  | .indexTablespace => "create-index-tablespace"
  | .tempTableName => "temp-table-naming"
  | .noDoubleQuotes => "no-double-quotes"
  | .constraintName _ => "constraint-naming"

def title : Rule → String
  | .tableTablespace => "CREATE TABLE Tablespace"
  | .indexTablespace => "CREATE INDEX Tablespace"
  | .tempTableName => "Temp Table Naming"
  | .noDoubleQuotes => "No Double Quotes"
  | .constraintName _ => "Constraint Naming"

def description : Rule → String
  | .tableTablespace => "CREATE TABLE statements must specify an allowed data tablespace."
  | .indexTablespace => "CREATE INDEX statements must specify an allowed index tablespace."
  | .tempTableName =>
    "Tables created as TEMPORARY, or created and dropped within the same script, must carry the " ++
      "temp_ name prefix."
  | .noDoubleQuotes => "Statements should not contain double quotes."
  | .constraintName _ =>
    "Constraints added with ALTER TABLE must be named CK_, FK_, PK_, UQ_ or NN_ followed by the " ++
      "table (and column) name."

/-- The violation that is reported when one is enough. -/
def violation? (policy : Policy) (script? : Option Statement) (statement : Statement) :
    Rule → Option Violation
  | .tableTablespace => Check.tablespace? "create table" policy.tableTablespaces statement
  | .indexTablespace => Check.tablespace? "create index" policy.indexTablespaces statement
  | .tempTableName => Check.tempTable? policy.tempPrefix script? statement
  | .noDoubleQuotes => statement.quotePosition?.map .doubleQuote
  | .constraintName conventions => (Check.misnamed conventions statement).head?

/-- Every violation. Only the naming of constraints can be violated more than
once by a statement. -/
def violations (policy : Policy) (script? : Option Statement) (statement : Statement)
    (rule : Rule) : List Violation :=
  match rule with
  | .constraintName conventions => Check.misnamed conventions statement
  | _ => (rule.violation? policy script? statement).toList

end Rule

/-- All that linters know of rules: the id by which a rule is found, and what it
finds in a statement. -/
class Evaluator (ρ : Type) where
  id (rule : ρ) : String
  violations (policy : Policy) (script? : Option Statement) (statement : Statement) (rule : ρ) :
    List Violation

instance : Evaluator Rule where
  id := Rule.id
  violations := Rule.violations

namespace Evaluator

@[simp] theorem id_rule (rule : Rule) : id rule = rule.id := rfl

@[simp] theorem violations_rule (policy : Policy) (script? : Option Statement)
    (statement : Statement) (rule : Rule) :
    violations policy script? statement rule = rule.violations policy script? statement := rfl

end Evaluator

/-- Rules in the order of their registration. -/
structure Registry (ρ : Type := Rule) where
  rules : List ρ := []
  deriving DecidableEq, Repr

namespace Registry

def standard : Registry :=
  ⟨[.constraintName NamingConvention.standard, .noDoubleQuotes, .tableTablespace,
    .indexTablespace, .tempTableName]⟩

variable {ρ : Type} [Evaluator ρ]

def find? (registry : Registry ρ) (ruleId : String) : Option ρ :=
  registry.rules.find? (Evaluator.id · == ruleId)

/-- Adds a rule, unless one with its id is there. -/
def register? (registry : Registry ρ) (rule : ρ) : Option (Registry ρ) :=
  if (registry.find? (Evaluator.id rule)).isSome then none else some ⟨registry.rules ++ [rule]⟩

end Registry
end SchemaLint
