import SchemaLint.Event

/-! Interactive sessions. A session lints scripts with its linter and evaluates
single statements with its bench. The bench is the linter itself until another
one is put there. -/
namespace SchemaLint

/-- A catalog entry whose severity is given by name. -/
structure Draft where
  ruleId : String
  severity : String
  failure : String
  success : String
  deriving DecidableEq, Repr

/-- Why a step is refused. -/
inductive Refusal where
  | config (fault : ConfigFault)
  | alreadyRegistered (ruleId : String)
  | unknownSeverity (name : String)
  | unknownLevel (name : String)
  deriving DecidableEq, Repr

def Refusal.message : Refusal → String
  | .config fault => fault.message
  | .alreadyRegistered ruleId => s!"Rule '{ruleId}' is already registered"
  | .unknownSeverity name => Text.quoted name ++ " is not a valid RuleSeverity"
  | .unknownLevel name => Text.quoted name ++ " is not a valid Level"

def Draft.ofDefinition (definition : Definition) : Draft :=
  ⟨definition.ruleId, definition.severity.name, definition.failure, definition.success⟩

def Draft.definition (draft : Draft) : Except Refusal Definition :=
  match Severity.ofName? draft.severity with
  | some severity => .ok ⟨draft.ruleId, severity, draft.failure, draft.success⟩
  | none => .error (.unknownSeverity draft.severity)

def Catalog.ofDrafts : List Draft → Except Refusal Catalog
  | [] => .ok []
  | draft :: rest => do
    let definition ← draft.definition
    let definitions ← ofDrafts rest
    return definition :: definitions

/-- Makes a linter of entries whose severities are still names. A bad name comes
before every other fault. -/
def Linter.ofDrafts (drafts : List Draft) (registry : Registry) (config : Config) :
    Except Refusal Linter :=
  match Catalog.ofDrafts drafts with
  | .error refusal => .error refusal
  | .ok catalog => (build catalog registry config).mapError .config

/-- A new value for one setting. -/
inductive Setting where
  | enabled (value : Bool)
  | disabled (ruleIds : List String)
  | only (ruleIds : Option (List String))
  | tableTablespaces (names : List String)
  | indexTablespaces (names : List String)
  | tempPrefix (value : String)
  | separator (value : String)
  deriving DecidableEq, Repr

def Config.set (config : Config) : Setting → Config
  | .enabled value => { config with selection := { config.selection with enabled := value } }
  | .disabled ruleIds => { config with selection := { config.selection with disabled := ruleIds } }
  | .only ruleIds => { config with selection := { config.selection with only := ruleIds } }
  | .tableTablespaces names =>
    { config with policy := { config.policy with tableTablespaces := names } }
  | .indexTablespaces names =>
    { config with policy := { config.policy with indexTablespaces := names } }
  | .tempPrefix value => { config with policy := { config.policy with tempPrefix := value } }
  | .separator value => { config with separator := value }

/-- The settings are not checked against the catalog. -/
def Linter.configure (linter : Linter) (settings : List Setting) : Linter :=
  { linter with config := settings.foldl Config.set linter.config }

structure Session where
  linter : Linter := .standard
  /-- A bench of its own, if the linter does not serve as one. -/
  ownBench : Option Linter := none
  registry : Registry := {}
  journal : Journal := {}
  /-- The linter for scripts without a configuration of their own, once there was
  such a script. -/
  defaultLinter : Option Linter := none
  deriving DecidableEq, Repr

namespace Session

inductive Step where
  | openLinter (config : Config) (catalog : List Draft)
  /-- The rules come from the session's registry or from the standard one. -/
  | openBench (config : Config) (catalog : List Draft) (ownRegistry : Bool)
  | showRules
  | configure (settings : List Setting)
  | evaluate (script? : Option String) (statement : String)
  | validate (script : String) (journaled : Bool)
  | lint (config? : Option Config) (script : String)
  | emit (level : String) (text : String)
  | separate (text : String)
  | clear
  | register (rule : Rule)
  | lookup (ruleId : String)
  deriving DecidableEq, Repr

inductive Answer where
  | rules (catalog active : Catalog)
  | result (result : StatementResult)
  | report (report : Report) (journal : Journal)
  | journal (journal : Journal)
  | registered (ruleIds : List String)
  | rule (rule? : Option Rule)
  | refused (refusal : Refusal)
  deriving DecidableEq

/-- The linter that evaluates single statements. -/
def bench (session : Session) : Linter := session.ownBench.getD session.linter

def rulesOf (linter : Linter) : Answer := .rules linter.catalog linter.active

/-- The linter for a script with or without a configuration of its own. The one
for scripts without is made only once, and the session keeps it. -/
def linterFor (session : Session) : Option Config → Except ConfigFault (Linter × Session)
  | some config => (Linter.build Catalog.standard .standard config).map (·, session)
  | none =>
    match session.defaultLinter with
    | some linter => .ok (linter, session)
    | none => (Linter.build Catalog.standard .standard {}).map fun linter =>
      (linter, { session with defaultLinter := some linter })

def step (session : Session) : Step → Except Refusal (Answer × Session)
  | .openLinter config catalog => do
    let linter ← Linter.ofDrafts catalog .standard config
    return (rulesOf linter, { session with linter := linter, ownBench := none })
  | .openBench config catalog ownRegistry => do
    let registry := if ownRegistry then session.registry else .standard
    let linter ← Linter.ofDrafts catalog registry config
    return (rulesOf linter, { session with ownBench := some linter })
  | .showRules => .ok (rulesOf session.bench, session)
  | .configure settings =>
    let bench := session.bench.configure settings
    match session.ownBench with
    | some _ => .ok (rulesOf bench, { session with ownBench := some bench })
    | none => .ok (rulesOf bench, { session with linter := bench })
  | .evaluate script? statement =>
    .ok (.result (session.bench.evaluate (script?.map .ofString) (.ofString statement)), session)
  | .validate script journaled =>
    let journal :=
      if journaled then session.journal.recordRun session.linter script else session.journal
    .ok (.report (session.linter.lint script) journal, { session with journal := journal })
  | .lint config? script =>
    match session.linterFor config? with
    | .error fault => .error (.config fault)
    | .ok (linter, session) =>
      let journal := session.journal.recordRun linter script
      .ok (.report (linter.lint script) journal, { session with journal := journal })
  | .emit level text =>
    match Level.ofName? level with
    | none => .error (.unknownLevel level)
    | some level =>
      let journal := session.journal.receive (.event (.message level text))
      .ok (.journal journal, { session with journal := journal })
  | .separate text =>
    let journal := session.journal.receive (.event (.separator text))
    .ok (.journal journal, { session with journal := journal })
  | .clear =>
    let journal := session.journal.receive .clear
    .ok (.journal journal, { session with journal := journal })
  | .register rule =>
    match session.registry.register? rule with
    | none => .error (.alreadyRegistered rule.id)
    | some registry =>
      .ok (.registered (registry.rules.map (·.id)), { session with registry := registry })
  | .lookup ruleId => .ok (.rule (session.registry.find? ruleId), session)

/-- The answers to the steps. A refused step leaves the session as it was. -/
def run (session : Session) : List Step → List Answer
  | [] => []
  | next :: rest =>
    match session.step next with
    | .ok (answer, session) => answer :: session.run rest
    | .error refusal => .refused refusal :: session.run rest

end Session
end SchemaLint
