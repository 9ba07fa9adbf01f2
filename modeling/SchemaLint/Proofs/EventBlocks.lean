import SchemaLint.Proofs.ScriptContext
import SchemaLint.Session

/-! The events of a lint run and its report tell the same story. The events come
in blocks that end at a separator, one for each statement, and from its block the
outcomes of a statement can be read back. -/
namespace SchemaLint

def Event.isAt (level : Level) : Event → Bool
  | .message shown _ => shown == level
  | .separator _ => false

/-- The number of messages at a level. -/
def Journal.levelCount (level : Level) (journal : Journal) : Nat :=
  journal.events.countP (·.isAt level)

/-- The messages up to each separator, and those that no separator follows. -/
def Event.cut : List Event → List (List (Level × String)) × List (Level × String)
  | [] => ([], [])
  | .separator _ :: rest => ([] :: (cut rest).1, (cut rest).2)
  | .message level text :: rest =>
    match cut rest with
    | ([], left) => ([], (level, text) :: left)
    | (block :: blocks, left) => (((level, text) :: block) :: blocks, left)

/-- The severity that a level stands for. -/
def Level.severity? : Level → Option Severity
  | .success => none
  | .info => some .warning
  | .error => some .error

/-- The failures that a block of messages tells. -/
def blockFailures (block : List (Level × String)) : List (Severity × String) :=
  block.filterMap fun (level, text) => level.severity?.map fun severity => (severity, text)

/-- A single message of success, or one or more messages of failure. -/
def IsBlock (block : List (Level × String)) : Prop :=
  (∃ text, block = [(.success, text)]) ∨ block ≠ [] ∧ ∀ message ∈ block, message.1 ≠ .success

theorem Level.severity?_ofSeverity (severity : Severity) :
    (Level.ofSeverity severity).severity? = some severity := by
  cases severity <;> rfl

namespace StatementResult

/-- The messages of a statement's block. -/
def messages (result : StatementResult) : List (Level × String) :=
  if result.passed then [(.success, "All rules passed. " ++ result.statement.text)]
  else result.outcomes.map fun outcome => (.ofSeverity outcome.severity, outcome.message)

theorem events_eq (separator : String) (result : StatementResult) :
    result.events separator =
      result.messages.map (fun message => .message message.1 message.2) ++
        [.separator separator] := by
  unfold events messages successMessage? passed
  cases result.outcomes <;> simp

theorem blockFailures_messages (result : StatementResult) :
    blockFailures result.messages =
      result.outcomes.map fun outcome => (outcome.severity, outcome.message) := by
  unfold messages passed
  cases result.outcomes with
  | nil => rfl
  | cons outcome outcomes =>
    simp only [List.isEmpty_cons, Bool.false_eq_true, if_false, blockFailures, List.filterMap_map,
      Function.comp_def, Level.severity?_ofSeverity, Option.map_some, List.filterMap_eq_map']

theorem isBlock_messages (result : StatementResult) : IsBlock result.messages := by
  unfold messages
  split
  · exact Or.inl ⟨_, rfl⟩
  · rename_i failed
    refine Or.inr ⟨?_, ?_⟩
    · simpa [passed] using failed
    · intro message member
      obtain ⟨outcome, -, rfl⟩ := List.mem_map.mp member
      cases outcome.severity <;> simp [Level.ofSeverity]

end StatementResult

theorem Event.cut_block (block : List (Level × String)) (separator : String) (rest : List Event) :
    Event.cut (block.map (fun message => .message message.1 message.2) ++
      .separator separator :: rest) = (block :: (Event.cut rest).1, (Event.cut rest).2) := by
  induction block with
  | nil => rfl
  | cons message block ih => rw [List.map_cons, List.cons_append, Event.cut, ih]

theorem Report.cut_events (separator : String) (results : List StatementResult) :
    Event.cut ((Report.linted results).events separator) =
      (results.map StatementResult.messages, []) := by
  rw [Report.events]
  induction results with
  | nil => rfl
  | cons result results ih =>
    rw [List.flatMap_cons, StatementResult.events_eq, List.append_assoc, List.singleton_append,
      Event.cut_block, ih, List.map_cons]

section Counting

variable (separator : String)

theorem StatementResult.countP_success (result : StatementResult) :
    (result.events separator).countP (·.isAt .success) = if result.passed then 1 else 0 := by
  rw [events_eq, messages, List.countP_append, List.countP_map]
  by_cases passes : result.passed = true
  · simp [passes, Event.isAt]
  · have none_at : ∀ outcome : Outcome,
        (Level.ofSeverity outcome.severity == .success) = false := by
      intro outcome
      cases outcome.severity <;> rfl
    simp [passes, Event.isAt, Function.comp_def, none_at]

theorem StatementResult.countP_ofSeverity (severity : Severity) (result : StatementResult) :
    (result.events separator).countP (·.isAt (.ofSeverity severity)) = result.count severity := by
  have same : ∀ outcome : Outcome,
      (Level.ofSeverity outcome.severity == .ofSeverity severity) =
        (outcome.severity == severity) := by
    intro outcome
    cases outcome.severity <;> cases severity <;> rfl
  rw [events_eq, messages, count, List.countP_append, List.countP_map]
  by_cases passes : result.passed = true
  · have none_failed : result.outcomes = [] := List.isEmpty_iff.mp passes
    cases severity <;> simp [passes, none_failed, Event.isAt, Level.ofSeverity]
  · simp [passes, Event.isAt, Function.comp_def, same]

theorem StatementResult.countP_isSeparator (result : StatementResult) :
    (result.events separator).countP (·.isSeparator) = 1 := by
  rw [events_eq, List.countP_append, List.countP_map]
  simp [Event.isSeparator, Function.comp_def]

variable (results : List StatementResult)

/-- What is counted in each block is counted in all of them. -/
theorem Report.countP_events {α : Type} {counts : Event → Bool} {marked : α → Bool}
    {parts : StatementResult → List α}
    (block : ∀ result : StatementResult,
      (result.events separator).countP counts = (parts result).countP marked) :
    ((Report.linted results).events separator).countP counts =
      (results.flatMap parts).countP marked := by
  rw [Report.events]
  induction results with
  | nil => rfl
  | cons result results ih =>
    rw [List.flatMap_cons, List.countP_append, ih, block, List.flatMap_cons, List.countP_append]

theorem Report.countP_success :
    ((Report.linted results).events separator).countP (·.isAt .success) =
      (Report.linted results).passed := by
  have block : ∀ result : StatementResult, (result.events separator).countP (·.isAt .success) =
      [result].countP (·.passed) := by
    intro result
    rw [StatementResult.countP_success, List.countP_singleton]
  rw [Report.countP_events separator results block, List.flatMap_singleton']
  rfl

theorem Report.countP_ofSeverity (severity : Severity) :
    ((Report.linted results).events separator).countP (·.isAt (.ofSeverity severity)) =
      (Report.linted results).count severity :=
  Report.countP_events separator results (StatementResult.countP_ofSeverity separator severity)

theorem Report.countP_isSeparator :
    ((Report.linted results).events separator).countP (·.isSeparator) = results.length := by
  have block : ∀ result : StatementResult, (result.events separator).countP (·.isSeparator) =
      [result].countP (fun _ => true) := by
    intro result
    rw [StatementResult.countP_isSeparator]
    rfl
  rw [Report.countP_events separator results block, List.flatMap_singleton', List.countP_true]

end Counting

theorem Journal.events_foldl_receive (journal : Journal) (events : List Event) :
    ((events.map Signal.event).foldl receive journal).events = journal.events ++ events := by
  induction events generalizing journal with
  | nil => simp
  | cons event events ih =>
    rw [List.map_cons, List.foldl_cons, ih, receive, List.append_assoc, List.singleton_append]

/-- What was in the journal before a run is forgotten. -/
theorem Journal.recordRun_eq (journal : Journal) (linter : Linter) (script : String) :
    journal.recordRun linter script = ⟨linter.events script⟩ := by
  have events := events_foldl_receive {} (linter.events script)
  rw [recordRun, Linter.signals, List.foldl_cons]
  exact congrArg Journal.mk events

namespace Linter

variable (linter : Linter) (script : String)

theorem total_lint : (linter.lint script).total = (Script.statements script).length := by
  rw [Report.total, results_lint, List.length_map]

theorem events_of_ne_empty (filled : script ≠ "") :
    linter.events script =
      (Report.linted (linter.lint script).results).events linter.config.separator := by
  rw [events, ← lint_of_ne_empty linter filled]

theorem events_empty : linter.events "" = [.message .error Report.emptyMessage] := rfl

theorem countP_isSeparator_events :
    (linter.events script).countP (·.isSeparator) = (linter.lint script).total := by
  by_cases empty : script = ""
  · subst empty
    rfl
  · rw [events_of_ne_empty linter script empty, Report.countP_isSeparator, Report.total]

theorem countP_success_events :
    (linter.events script).countP (·.isAt .success) = (linter.lint script).passed := by
  by_cases empty : script = ""
  · subst empty
    rfl
  · rw [events_of_ne_empty linter script empty, Report.countP_success,
      ← lint_of_ne_empty linter empty]

/-- The message for an empty script is an error that belongs to no statement. -/
theorem countP_ofSeverity_events (severity : Severity) :
    (linter.events script).countP (·.isAt (.ofSeverity severity)) =
      (linter.lint script).count severity + if script = "" ∧ severity = .error then 1 else 0 := by
  by_cases empty : script = ""
  · subst empty
    cases severity <;> rfl
  · rw [events_of_ne_empty linter script empty, Report.countP_ofSeverity,
      ← lint_of_ne_empty linter empty, if_neg fun both => empty both.1, Nat.add_zero]

theorem hasErrors_iff_mem_events :
    (linter.lint script).hasErrors = true ↔
      ∃ text, .message .error text ∈ linter.events script := by
  have count := countP_ofSeverity_events linter script .error
  have positive : 0 < (linter.events script).countP (·.isAt .error) ↔
      ∃ text, .message .error text ∈ linter.events script := by
    rw [List.countP_pos_iff]
    constructor
    · rintro ⟨event, member, shown⟩
      cases event with
      | message level text =>
        obtain rfl : level = .error := by simpa [Event.isAt] using shown
        exact ⟨text, member⟩
      | separator text => cases shown
    · rintro ⟨text, member⟩
      exact ⟨_, member, rfl⟩
  rw [← positive, Report.hasErrors, error?_lint]
  by_cases empty : script = ""
  · simp [empty, events_empty, Event.isAt]
  · simp only [empty, false_and, if_false, Nat.add_zero] at count
    simp only [empty, if_false, Option.isSome_none, Bool.false_or, decide_eq_true_eq, ← count,
      gt_iff_lt]
    rfl

theorem cut_events : Event.cut (linter.events script) =
    ((linter.lint script).results.map StatementResult.messages,
      if script = "" then [(.error, Report.emptyMessage)] else []) := by
  by_cases empty : script = ""
  · subst empty
    rfl
  · rw [events_of_ne_empty linter script empty, Report.cut_events, if_neg empty]

end Linter

theorem Report.total_eq (report : Report) : report.total = report.passed + report.failed := by
  have passed : report.passed ≤ report.total := List.countP_le_length
  rw [failed]
  omega

/-- The journal of a run and its report. Neither depends on what the journal held
before, and the report does not depend on whether there is a journal. -/
theorem Session.journal_agrees_with_report (session : Session) (script : String) :
    ∃ report recorded,
      (∀ journal, { session with journal := journal }.step (.validate script true) =
        .ok (.report report recorded, { session with journal := recorded })) ∧
      session.step (.validate script false) = .ok (.report report session.journal, session) ∧
      recorded.blockCount = report.total ∧
      report.total = (Script.statements script).length ∧
      report.total = report.passed + report.failed ∧
      recorded.levelCount .success = report.passed ∧
      recorded.levelCount .info = report.count .warning ∧
      recorded.levelCount .error = report.count .error + (if script = "" then 1 else 0) ∧
      (report.hasErrors = true ↔ ∃ text, .message .error text ∈ recorded.events) ∧
      (∀ block ∈ (Event.cut recorded.events).1, IsBlock block) ∧
      ((Event.cut recorded.events).1.map blockFailures = report.results.map fun result =>
        result.outcomes.map fun outcome => (outcome.severity, outcome.message)) ∧
      (Event.cut recorded.events).2 =
        if script = "" then [(.error, Report.emptyMessage)] else [] := by
  refine ⟨session.linter.lint script, ⟨session.linter.events script⟩, ?_, rfl,
    Linter.countP_isSeparator_events _ _, Linter.total_lint _ _, Report.total_eq _,
    Linter.countP_success_events _ _, ?_, ?_, Linter.hasErrors_iff_mem_events _ _, ?_, ?_, ?_⟩
  · intro journal
    simp only [step, if_true, Journal.recordRun_eq]
  · have count := Linter.countP_ofSeverity_events session.linter script .warning
    simp only [reduceCtorEq, and_false, if_false, Nat.add_zero] at count
    exact count
  · have count := Linter.countP_ofSeverity_events session.linter script .error
    simp only [and_true] at count
    exact count
  · intro block member
    rw [Linter.cut_events] at member
    obtain ⟨result, -, rfl⟩ := List.mem_map.mp member
    exact result.isBlock_messages
  · rw [Linter.cut_events, List.map_map]
    exact List.map_congr_left fun result _ => result.blockFailures_messages
  · rw [Linter.cut_events]

end SchemaLint
