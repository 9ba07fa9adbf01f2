import SchemaLint.Report
import SchemaLint.Rule
import SchemaLint.Script

/-! Linters: a catalog whose entries have found their rules, under a
configuration. -/
namespace SchemaLint

structure Linter (ρ : Type := Rule) where
  entries : List (Definition × ρ)
  config : Config
  deriving DecidableEq, Repr

/-- Why no linter can be made. -/
inductive ConfigFault where
  /-- The catalog has two entries for the rule. -/
  | repeatedRule (ruleId : String)
  /-- The registry has no rule for an entry. -/
  | unregisteredRule (ruleId : String)
  /-- The configuration names rules that are not in the catalog. -/
  | unknownRules (first : String) (others : List String)
  deriving DecidableEq, Repr

namespace ConfigFault

def message : ConfigFault → String
  | .repeatedRule ruleId => s!"Rule '{ruleId}' appears twice in the catalog."
  | .unregisteredRule ruleId =>
    s!"There is some issue with the configuration of rule: {ruleId}. " ++
      "No evaluator is registered for it."
  | .unknownRules first others =>
    "Unknown rule(s) in configuration: " ++ ", ".intercalate (first :: others) ++ "."

/-- The rule to blame. -/
def ruleId : ConfigFault → String
  | .repeatedRule ruleId | .unregisteredRule ruleId | .unknownRules ruleId _ => ruleId

end ConfigFault

/-- A violation, with the entry of the rule that found it. -/
structure Finding where
  definition : Definition
  violation : Violation
  deriving DecidableEq, Repr

def Finding.outcome (finding : Finding) : Outcome :=
  ⟨finding.definition.ruleId, finding.definition.severity,
   finding.definition.message finding.violation.remark?⟩

namespace Linter

variable {ρ : Type} [Evaluator ρ]

/-- Finds the rules of the entries in order. `seen` holds the ids of the entries
before them. -/
def resolve (registry : Registry ρ) (seen : List String) :
    Catalog → Except ConfigFault (List (Definition × ρ))
  | [] => .ok []
  | definition :: rest =>
    if seen.contains definition.ruleId then .error (.repeatedRule definition.ruleId)
    else
      match registry.find? definition.ruleId with
      | none => .error (.unregisteredRule definition.ruleId)
      | some rule =>
        (resolve registry (definition.ruleId :: seen) rest).map fun entries =>
          (definition, rule) :: entries

/-- Makes a linter. Faults of the catalog come before those of the
configuration. -/
def build (catalog : Catalog) (registry : Registry ρ) (config : Config) :
    Except ConfigFault (Linter ρ) :=
  match resolve registry [] catalog with
  | .error fault => .error fault
  | .ok entries =>
    match ascending (config.selection.named.filter fun ruleId =>
        !(catalog.map (·.ruleId)).contains ruleId) with
    | [] => .ok ⟨entries, config⟩
    | first :: others => .error (.unknownRules first others)

def standard : Linter where
  entries := Catalog.standard.zip
    [.tableTablespace, .indexTablespace, .tempTableName, .noDoubleQuotes,
     .constraintName NamingConvention.standard]
  config := {}

theorem build_standard : build Catalog.standard Registry.standard {} = .ok standard := by rfl

def catalog (linter : Linter ρ) : Catalog := linter.entries.map (·.1)

/-- The entries whose rules run. -/
def activeEntries (linter : Linter ρ) : List (Definition × ρ) :=
  linter.entries.filter fun entry => linter.config.selection.runs entry.1.ruleId

def active (linter : Linter ρ) : Catalog := linter.activeEntries.map (·.1)

/-- What the active rules find in a statement, in the order of the catalog. -/
def findings (linter : Linter ρ) (script? : Option Statement) (statement : Statement) :
    List Finding :=
  linter.activeEntries.flatMap fun (definition, rule) =>
    (Evaluator.violations linter.config.policy script? statement rule).map fun violation =>
      ⟨definition, violation⟩

def evaluate (linter : Linter ρ) (script? : Option Statement) (statement : Statement) :
    StatementResult :=
  ⟨statement, (linter.findings script? statement).map Finding.outcome⟩

/-- Lints each statement of a script in the light of the whole script. -/
def lint (linter : Linter ρ) (script : String) : Report :=
  if script = "" then .emptyScript
  else
    let whole := Statement.ofString script
    .linted ((Script.statements script).map fun statement =>
      linter.evaluate (some whole) (.ofString statement))

end Linter

/-- Lints a script with the standard catalog. -/
def lint (config : Config) (script : String) : Except ConfigFault Report :=
  (Linter.build Catalog.standard Registry.standard config).map fun linter => linter.lint script

end SchemaLint
