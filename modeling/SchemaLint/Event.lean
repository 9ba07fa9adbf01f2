import SchemaLint.Linter

/-! The messages of a lint run, and the journal that collects them. -/
namespace SchemaLint

inductive Level where
  | success
  | info
  | error
  deriving DecidableEq, Repr

namespace Level

def name : Level → String
  | .success => "success"
  | .info => "info"
  | .error => "error"

def ofName? : String → Option Level
  | "success" => some .success
  | "info" => some .info
  | "error" => some .error
  | _ => none

@[simp] theorem ofName?_name (level : Level) : ofName? level.name = some level := by
  cases level <;> rfl

/-- Warnings are shown as information. -/
def ofSeverity : Severity → Level
  | .error => .error
  | .warning => .info

end Level

inductive Event where
  | message (level : Level) (text : String)
  /-- The line that closes the messages of a statement. -/
  | separator (text : String)
  deriving DecidableEq, Repr

def Event.isSeparator : Event → Bool
  | .message _ _ => false
  | .separator _ => true

/-- The block of a statement: one message of success or one for each outcome,
then the separator. -/
def StatementResult.events (separator : String) (result : StatementResult) : List Event :=
  (result.successMessage?.map (.message .success)).toList ++
    result.outcomes.map (fun outcome => .message (.ofSeverity outcome.severity) outcome.message) ++
    [.separator separator]

def Report.events (separator : String) : Report → List Event
  | .emptyScript => [.message .error Report.emptyMessage]
  | .linted results => results.flatMap (·.events separator)

def Linter.events (linter : Linter) (script : String) : List Event :=
  (linter.lint script).events linter.config.separator

/-- What a lint run tells whoever shows its messages. -/
inductive Signal where
  /-- Forget what was shown before. -/
  | clear
  | event (event : Event)
  deriving DecidableEq, Repr

/-- A run first clears what is shown, then sends its events. -/
def Linter.signals (linter : Linter) (script : String) : List Signal :=
  .clear :: (linter.events script).map .event

/-- Events in the order in which they were recorded. -/
structure Journal where
  events : List Event := []
  deriving DecidableEq, Repr

namespace Journal

def receive (journal : Journal) : Signal → Journal
  | .clear => {}
  | .event event => ⟨journal.events ++ [event]⟩

def messageCount (journal : Journal) : Nat := journal.events.countP (!·.isSeparator)

def blockCount (journal : Journal) : Nat := journal.events.countP (·.isSeparator)

def recordRun (journal : Journal) (linter : Linter) (script : String) : Journal :=
  (linter.signals script).foldl receive journal

end Journal
end SchemaLint
