import SchemaLint.Proofs.EscapeSequences
import SchemaLint.Proofs.EventBlocks
import SchemaLint.Proofs.RuleIsolation
import SchemaLint.Terminal.Console

/-! Console output line by line. Without colours the output of a run is one line
for each event, and only the level of an event decides how its line begins: no
text that is shown can break a line or stand in front of its label. -/
namespace SchemaLint.Terminal
open Text

/-- A text as a stream shows it. -/
def shown (keepsEscapes : Bool) (text : List Char) : List Char :=
  if keepsEscapes then text else stripEscapes text

theorem shown_sublist (keepsEscapes : Bool) (text : List Char) :
    (shown keepsEscapes text).Sublist text := by
  unfold shown
  split
  · exact List.Sublist.refl _
  · exact stripEscapes_sublist text

theorem shown_eq_self {text : List Char} (clean : escape ∉ text) (keepsEscapes : Bool) :
    shown keepsEscapes text = text := by
  have stripped := stripEscapes_append clean []
  simp only [List.append_nil] at stripped
  unfold shown
  split
  · rfl
  · exact stripped.trans (List.append_nil text)

theorem toList_printed (keepsEscapes : Bool) (line : String) :
    (printed keepsEscapes line).toList = shown keepsEscapes line.toList ++ ['\n'] := by
  unfold printed shown
  split <;> simp

theorem printed_eq {line : String} (clean : escape ∉ line.toList) (keepsEscapes : Bool) :
    printed keepsEscapes line = line ++ "\n" := by
  apply String.toList_injective
  rw [toList_printed, shown_eq_self clean, String.toList_append]
  rfl

/-- The label of a level with the space after it, such as `[ERROR] ` for errors. -/
def heading (level : Level) : List Char := (level.label ++ " ").toList

end SchemaLint.Terminal

namespace SchemaLint
open Text Terminal

/-- The event that a signal brings. -/
def Signal.event? : Signal → Option Event
  | .clear => none
  | .event sent => some sent

def Event.text : Event → String
  | .message _ text => text
  | .separator text => text

/-- The line of an event without colours: the heading of its level, if it has one,
and then its text. -/
def Event.plainLine (keepsEscapes : Bool) : Event → List Char
  | .message level text => heading level ++ shown keepsEscapes text.toList
  | .separator text => shown keepsEscapes text.toList

namespace Terminal.Console

variable {console : Console}

/-- Coloured or not, only the label itself is left of it. -/
theorem stripEscapes_label (console : Console) (level : Level) (rest : List Char) :
    stripEscapes ((console.label level).toList ++ rest) =
      level.label.toList ++ stripEscapes rest := by
  have plain : escape ∉ level.label.toList := by
    cases level <;> decide
  cases colored : console.colored with
  | false => rw [label, if_neg (by simp [colored]), stripEscapes_append plain]
  | true =>
    have numeric : ∀ c ∈ (color level).toList, isParameter c = true := by
      cases level <;> exact List.all_eq_true.mp rfl
    have styled : (console.label level).toList ++ rest =
        (style (color level)).toList ++ ((style "1").toList ++
          (level.label.toList ++ ((style "0").toList ++ rest))) := by
      simp [label, colored]
    have bold := isSequence_style "1" (List.all_eq_true.mp rfl)
    have reset := isSequence_style "0" (List.all_eq_true.mp rfl)
    rw [styled, (isSequence_style _ numeric).stripEscapes_append, bold.stripEscapes_append,
      stripEscapes_append plain, reset.stripEscapes_append]

/-- The line of an event as the stream shows it. -/
def shownLine (console : Console) (event : Event) : List Char :=
  shown console.keepsEscapes (console.line event).toList

theorem toList_output (console : Console) (signals : List Signal) :
    (console.output signals).toList =
      ((signals.filterMap Signal.event?).map console.shownLine).flatMap (· ++ ['\n']) := by
  rw [output, String.toList_join, List.flatMap_map]
  induction signals with
  | nil => rfl
  | cons signal signals ih =>
    rw [List.flatMap_cons, ih]
    cases signal with
    | clear => rfl
    | event event =>
      rw [respond, toList_printed]
      rfl

/-- The line of an event, when colours are off or the stream drops them. -/
theorem shownLine_eq_plainLine (plain : console.colored = false ∨ console.keepsEscapes = false)
    (event : Event) : console.shownLine event = event.plainLine console.keepsEscapes := by
  cases event with
  | separator text => rfl
  | message level text =>
    have spelled : (console.line (.message level text)).toList =
        (console.label level).toList ++ ' ' :: text.toList := by
      simp [line]
    have headed : heading level = level.label.toList ++ [' '] := by
      simp [heading]
    rw [shownLine, spelled, Event.plainLine, headed, List.append_assoc, List.singleton_append,
      shown, shown]
    cases keeps : console.keepsEscapes with
    | true =>
      obtain colorless | drops := plain
      · simp [label, colorless]
      · rw [keeps] at drops
        cases drops
    | false =>
      have space : ' ' ≠ escape := by decide
      simp only [Bool.false_eq_true, if_false, stripEscapes_label, stripEscapes_cons space]

end Terminal.Console

theorem Text.pieces_lines {lines : List (List Char)} (unbroken : ∀ line ∈ lines, '\n' ∉ line) :
    pieces (· == '\n') (lines.flatMap (· ++ ['\n'])) = lines ++ [[]] := by
  induction lines with
  | nil => rfl
  | cons line lines ih =>
    have uncut : ∀ c ∈ line, (c == '\n') = false := by
      intro c member
      refine beq_eq_false_iff_ne.mpr ?_
      rintro rfl
      exact unbroken line List.mem_cons_self member
    have rest := ih fun other member => unbroken other (List.mem_cons_of_mem _ member)
    rw [List.flatMap_cons, List.append_assoc, List.singleton_append, pieces_append_cons rfl, rest,
      pieces_uncut uncut]
    rfl

/-- The conventions that a rule judges names by. -/
def Rule.conventions : Rule → List NamingConvention
  | .constraintName conventions => conventions
  | _ => []

/-- What a linter says of its own accord is on one line: its separator, and all
that its entries and conventions put into messages. -/
structure Linter.Unbroken (linter : Linter) : Prop where
  separator : '\n' ∉ linter.config.separator.toList
  failure : ∀ entry ∈ linter.entries, '\n' ∉ entry.1.failure.toList
  conventions : ∀ entry ∈ linter.entries, ∀ convention ∈ entry.2.conventions,
    '\n' ∉ convention.label.toList ∧ '\n' ∉ convention.format.toList

/-- Only the naming of constraints reports a misnamed one, and only by its own
conventions. -/
theorem Rule.mem_conventions_of_misnamed {rule : Rule} {policy : Policy}
    {script? : Option Statement} {statement : Statement} {convention : NamingConvention}
    {declared expected : String}
    (member : .misnamed convention declared expected ∈ rule.violations policy script? statement) :
    convention ∈ rule.conventions := by
  cases rule with
  | constraintName conventions =>
    obtain ⟨other, present, judged⟩ := List.mem_filterMap.mp member
    obtain ⟨_, _, same⟩ := Check.exists_of_judge? judged
    cases same
    exact present
  | tableTablespace | indexTablespace =>
    simp only [violations, violation?, Check.tablespace?, Option.mem_toList] at member
    grind
  | tempTableName =>
    simp only [violations, violation?, Check.tempTable?, Option.mem_toList,
      Option.or_eq_some_iff, Option.bind_eq_some_iff] at member
    rcases member with temporary | ⟨-, script, -, dropped⟩
    · simp only [Check.temporary?] at temporary
      grind
    · obtain ⟨table, facts⟩ := Check.dropped?_eq_some_iff.mp dropped
      grind
  | noDoubleQuotes => simp [violations, violation?] at member

theorem Definition.newline_not_mem_message {definition : Definition} {remark? : Option String}
    (failure : '\n' ∉ definition.failure.toList)
    (remark : ∀ remark, remark? = some remark → '\n' ∉ remark.toList) :
    '\n' ∉ (definition.message remark?).toList := by
  unfold Definition.message
  split
  · exact failure
  · exact failure
  · rename_i text _
    simp [failure, remark text rfl]

namespace Linter

variable {linter : Linter}

theorem Unbroken.newline_not_mem_outcome (unbroken : linter.Unbroken)
    {script? : Option Statement} {statement : Statement} {outcome : Outcome}
    (member : outcome ∈ (linter.evaluate script? statement).outcomes) :
    '\n' ∉ outcome.message.toList := by
  rw [outcomes_evaluate, List.mem_flatMap] at member
  obtain ⟨entry, active, member⟩ := member
  obtain ⟨violation, found, rfl⟩ := List.mem_map.mp member
  have present := (List.mem_filter.mp active).1
  refine Definition.newline_not_mem_message (unbroken.failure entry present) ?_
  intro remark remarked
  cases violation with
  | misnamed convention declared expected =>
    obtain ⟨label, format⟩ := unbroken.conventions entry present convention
      (Rule.mem_conventions_of_misnamed found)
    obtain rfl := Option.some.inj remarked
    simp only [String.toList_append, List.mem_append, not_or]
    exact ⟨⟨⟨⟨by decide, label⟩, by decide⟩, format⟩, by decide⟩
  | _ => cases remarked

/-- The events of a run: the complaint about an empty script, or the messages of
its statements and separators. -/
theorem of_mem_events {script : String} {event : Event} (member : event ∈ linter.events script) :
    event = .message .error Report.emptyMessage ∨ event = .separator linter.config.separator ∨
      ∃ statement, ∃ message ∈ (linter.evaluate (some (.ofString script)) statement).messages,
        event = .message message.1 message.2 := by
  by_cases empty : script = ""
  · subst empty
    exact Or.inl (List.mem_singleton.mp member)
  rw [events_of_ne_empty linter script empty, Report.events, List.mem_flatMap] at member
  obtain ⟨result, evaluated, member⟩ := member
  rw [results_lint, List.mem_map] at evaluated
  obtain ⟨statement, -, rfl⟩ := evaluated
  rw [StatementResult.events_eq, List.mem_append, List.mem_map, List.mem_singleton] at member
  rcases member with ⟨message, said, rfl⟩ | rfl
  · exact Or.inr (Or.inr ⟨_, message, said, rfl⟩)
  · exact Or.inr (Or.inl rfl)

theorem Unbroken.newline_not_mem_event (unbroken : linter.Unbroken) {script : String}
    {event : Event} (member : event ∈ linter.events script) : '\n' ∉ event.text.toList := by
  rcases of_mem_events member with rfl | rfl | ⟨statement, message, said, rfl⟩
  · rw [Event.text]
    decide
  · exact unbroken.separator
  · rw [StatementResult.messages] at said
    split at said
    · obtain rfl := List.mem_singleton.mp said
      have plain : '\n' ∉ statement.chars := by
        intro broken
        have unmarked := statement.oneLine _ broken
        cases unmarked
      have opening : '\n' ∉ "All rules passed. ".toList := by decide
      rw [Event.text, String.toList_append, List.mem_append, not_or]
      exact ⟨opening, by rwa [Statement.text, String.toList_ofList]⟩
    · obtain ⟨outcome, failed, rfl⟩ := List.mem_map.mp said
      exact unbroken.newline_not_mem_outcome failed

theorem entries_of_build_standard {config : Config}
    (built : build Catalog.standard Registry.standard config = .ok linter) :
    linter.entries = standard.entries := by
  have resolved := (build_eq_ok_iff.mp built).1
  have found := (build_eq_ok_iff.mp build_standard).1
  exact Except.ok.inj ((resolve_eq_ok_iff.mpr resolved).symm.trans (resolve_eq_ok_iff.mpr found))

theorem unbroken_of_build_standard {config : Config}
    (built : build Catalog.standard Registry.standard config = .ok linter)
    (separator : '\n' ∉ config.separator.toList) : linter.Unbroken := by
  have failures : standard.entries.all (fun entry =>
      decide ('\n' ∉ entry.1.failure.toList)) = true := by decide +kernel
  have conventions : standard.entries.all (fun entry => entry.2.conventions.all fun convention =>
      decide ('\n' ∉ convention.label.toList ∧ '\n' ∉ convention.format.toList)) = true := by
    decide +kernel
  rw [← entries_of_build_standard built] at failures conventions
  simp only [List.all_eq_true, decide_eq_true_eq] at failures conventions
  exact ⟨(build_eq_ok_iff.mp built).2.1 ▸ separator, failures, conventions⟩

end Linter

theorem Terminal.heading_error_isPrefix_iff {level : Level} {text : List Char} :
    heading .error <+: heading level ++ text ↔ level = .error := by
  constructor
  · rintro ⟨rest, same⟩
    have second := congrArg (fun text => text[1]?) same
    cases level with
    | error => rfl
    | success =>
      change some 'E' = some 'S' at second
      cases second
    | info =>
      change some 'E' = some 'I' at second
      cases second
  · rintro rfl
    exact List.prefix_append _ _

namespace Terminal.Console

theorem newline_not_mem_label (console : Console) (level : Level) :
    '\n' ∉ (console.label level).toList := by
  cases colored : console.colored with
  | false =>
    simp only [label, colored, Bool.false_eq_true, if_false]
    cases level <;> decide
  | true =>
    simp only [label, colored, if_true]
    cases level <;> decide

/-- A line is broken only where its text is, coloured or not. -/
theorem newline_not_mem_shownLine {event : Event} (unbroken : '\n' ∉ event.text.toList)
    (console : Console) : '\n' ∉ console.shownLine event := by
  intro broken
  have inside := (shown_sublist _ _).subset broken
  cases event with
  | separator text => exact unbroken inside
  | message level text =>
    simp only [line, String.toList_append, List.mem_append] at inside
    rcases inside with (label | space) | here
    · exact newline_not_mem_label console level label
    · cases space with
      | tail _ member => cases member
    · exact unbroken here

theorem pieces_output {signals : List Signal}
    (unbroken : ∀ event, .event event ∈ signals → '\n' ∉ event.text.toList) (console : Console) :
    pieces (· == '\n') (console.output signals).toList =
      (signals.filterMap Signal.event?).map console.shownLine ++ [[]] := by
  rw [toList_output]
  apply pieces_lines
  intro line member
  obtain ⟨event, sent, rfl⟩ := List.mem_map.mp member
  obtain ⟨signal, present, brings⟩ := List.mem_filterMap.mp sent
  cases signal with
  | clear => cases brings
  | event own =>
    obtain rfl := Option.some.inj brings
    exact newline_not_mem_shownLine (unbroken own present) console

end Terminal.Console

namespace Linter

/-- The lines of a run without colours. -/
def plainLines (linter : Linter) (script : String) (keepsEscapes : Bool) : List (List Char) :=
  (linter.events script).map (Event.plainLine keepsEscapes)

variable {linter : Linter}

theorem filterMap_event?_signals (linter : Linter) (script : String) :
    (linter.signals script).filterMap Signal.event? = linter.events script := by
  rw [signals, List.filterMap_cons_none rfl, List.filterMap_map]
  exact List.filterMap_some

theorem Unbroken.pieces_output (unbroken : linter.Unbroken) (script : String) {console : Console}
    (plain : console.colored = false ∨ console.keepsEscapes = false) :
    pieces (· == '\n') (console.output (linter.signals script)).toList =
      linter.plainLines script console.keepsEscapes ++ [[]] := by
  have sent : ∀ event, .event event ∈ linter.signals script → '\n' ∉ event.text.toList := by
    intro event member
    have present : event ∈ linter.events script := by simpa [signals] using member
    exact unbroken.newline_not_mem_event present
  rw [Console.pieces_output sent, filterMap_event?_signals]
  congr 1
  exact List.map_congr_left fun event _ => Console.shownLine_eq_plainLine plain event

theorem heading_or_separator_of_mem_plainLines (clean : escape ∉ linter.config.separator.toList)
    {script : String} {keepsEscapes : Bool} {line : List Char}
    (member : line ∈ linter.plainLines script keepsEscapes) :
    (∃ level, heading level <+: line) ∨ line = linter.config.separator.toList := by
  obtain ⟨event, sent, rfl⟩ := List.mem_map.mp member
  rcases of_mem_events sent with rfl | rfl | ⟨statement, message, said, rfl⟩
  · exact Or.inl ⟨_, List.prefix_append _ _⟩
  · exact Or.inr (shown_eq_self clean keepsEscapes)
  · exact Or.inl ⟨_, List.prefix_append _ _⟩

/-- Lines that begin with the heading for errors are those of errors, provided that
the separator does not fake it. -/
theorem exists_error_line_iff (clean : '[' ∉ linter.config.separator.toList) (script : String)
    (keepsEscapes : Bool) :
    (∃ line ∈ linter.plainLines script keepsEscapes, heading .error <+: line) ↔
      (linter.lint script).hasErrors = true := by
  rw [hasErrors_iff_mem_events]
  constructor
  · rintro ⟨line, member, begins⟩
    obtain ⟨event, sent, rfl⟩ := List.mem_map.mp member
    cases event with
    | message level text =>
      obtain rfl := heading_error_isPrefix_iff.mp begins
      exact ⟨text, sent⟩
    | separator text =>
      have bracket : '[' ∈ text.toList :=
        (shown_sublist _ _).subset (begins.subset (by decide))
      rcases of_mem_events sent with other | same | ⟨_, _, _, other⟩
      · cases other
      · cases same
        exact absurd bracket clean
      · cases other
  · rintro ⟨text, sent⟩
    exact ⟨_, List.mem_map_of_mem sent, List.prefix_append _ _⟩

end Linter

end SchemaLint
