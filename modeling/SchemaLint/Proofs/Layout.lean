import SchemaLint.CommandLine.Run
import SchemaLint.Proofs.ScriptContext
import SchemaLint.Proofs.Text.LineStyle

/-! The layout of a script does not matter: neither the style of its line breaks
nor the blanks and terminators around it. -/
namespace SchemaLint

open Text Phrase

theorem Statement.ofString_eq {first second : String}
    (same : onOneLine first.toList = onOneLine second.toList) :
    ofString first = ofString second := by
  simp only [ofString, same]

theorem Script.map_ofString_statements (script : String) :
    (statements script).map Statement.ofString =
      (segments (onOneLine script.toList)).map fun segment =>
        Statement.ofString (String.ofList segment) := by
  rw [statements_eq, List.map_map, segments_onOneLine, List.map_map]
  apply List.map_congr_left
  intro segment _
  apply Statement.ofString_eq
  simp only [String.toList_ofList, onOneLine_onOneLine]

namespace Linter

theorem lint_eq_of_onOneLine_eq (linter : Linter) {first second : String}
    (same : onOneLine first.toList = onOneLine second.toList) :
    linter.lint first = linter.lint second := by
  have empty : first = "" ↔ second = "" := by
    rw [← String.toList_eq_nil_iff, ← String.toList_eq_nil_iff, ← onOneLine_eq_nil_iff, same,
      onOneLine_eq_nil_iff]
  have statements : (Script.statements first).map Statement.ofString =
      (Script.statements second).map Statement.ofString := by
    rw [Script.map_ofString_statements, Script.map_ofString_statements, same]
  have results := congrArg
    (List.map (linter.evaluate (some (Statement.ofString second)))) statements
  simp only [List.map_map] at results
  simp only [lint, empty, Statement.ofString_eq same]
  split
  · rfl
  · exact congrArg Report.linted results

end Linter

theorem isGap_of_mem_onOneLine {gaps : List Char} (all : ∀ c ∈ gaps, IsGap c) :
    ∀ c ∈ onOneLine gaps, IsGap c := by
  intro c member
  rcases mem_of_mem_onOneLine member with rfl | present
  · exact Or.inl rfl
  · exact all c present

theorem samePhrases_padded {before after : String} (gapsBefore : ∀ c ∈ before.toList, IsGap c)
    (gapsAfter : ∀ c ∈ after.toList, IsGap c) (text : String) :
    SamePhrases (.ofString (before ++ text ++ after)) (.ofString text) := by
  intro words solid
  obtain ⟨⟨rest, restSuffix, ending⟩, -⟩ :=
    onOneLine_append_eq (before.toList ++ text.toList) after.toList
  obtain ⟨-, start, startPrefix, beginning⟩ := onOneLine_append_eq before.toList text.toList
  have line : (Statement.ofString (before ++ text ++ after)).chars =
      onOneLine start ++ (onOneLine text.toList ++ onOneLine rest) := by
    rw [Statement.chars_ofString, String.toList_append, String.toList_append, ending, beginning,
      List.append_assoc]
  have startGaps := isGap_of_mem_onOneLine fun c member => gapsBefore c (startPrefix.subset member)
  have restGaps := isGap_of_mem_onOneLine fun c member => gapsAfter c (restSuffix.subset member)
  rw [line, occurs_gaps_append solid startGaps, occurs_append_gaps solid restGaps,
    Statement.chars_ofString]

theorem Script.statements_padded {before after : String}
    (gapsBefore : ∀ c ∈ before.toList, IsGap c) (gapsAfter : ∀ c ∈ after.toList, IsGap c)
    (text : String) : statements (before ++ text ++ after) = statements text := by
  rw [statements_eq, statements_eq, String.toList_append, String.toList_append,
    segments_gaps gapsBefore gapsAfter]

namespace Linter

theorem lint_padded (linter : Linter) {before after : String}
    (gapsBefore : ∀ c ∈ before.toList, IsGap c) (gapsAfter : ∀ c ∈ after.toList, IsGap c)
    {text : String} (filled : text ≠ "") :
    linter.lint (before ++ text ++ after) = linter.lint text := by
  have padded : before ++ text ++ after ≠ "" := by
    intro empty
    apply filled
    rw [← String.toList_eq_nil_iff, String.toList_append, String.toList_append] at empty
    rw [← String.toList_eq_nil_iff]
    exact (List.append_eq_nil_iff.mp (List.append_eq_nil_iff.mp empty).1).2
  rw [lint_of_ne_empty linter padded, lint_of_ne_empty linter filled, results_lint, results_lint,
    Script.statements_padded gapsBefore gapsAfter,
    map_evaluate_congr (samePhrases_padded gapsBefore gapsAfter text)]

/-- The texts give the same report and the same signals. -/
def SameRun (linter : Linter) (first second : String) : Prop :=
  linter.lint first = linter.lint second ∧ linter.signals first = linter.signals second

theorem sameRun_of_lint_eq {linter : Linter} {first second : String}
    (same : linter.lint first = linter.lint second) : linter.SameRun first second := by
  refine ⟨same, ?_⟩
  rw [signals, signals, events, events, same]

theorem lint_markBreaks (linter : Linter) (text : List Char) :
    linter.lint (String.ofList (markBreaks '\n' text)) = linter.lint (String.ofList text) := by
  apply lint_eq_of_onOneLine_eq
  rw [String.toList_ofList, String.toList_ofList]
  exact (sameLines_markBreaks text).onOneLine_eq.symm

/-- Independence of layout. A run of the command line, which marks line breaks in
its own way, comes to the same as linting the text as it was read. -/
theorem lint_layout (linter : Linter) :
    (∀ text : String, linter.SameRun text (Statement.ofString text).text) ∧
    (∀ first second : String, SameLines first.toList second.toList →
      linter.SameRun first second) ∧
    (∀ config text, SchemaLint.lint config (String.ofList (markBreaks '\n' text)) =
      SchemaLint.lint config (String.ofList text)) ∧
    (∀ streams options bytes text, Utf8.decode bytes = .ok text →
      (CommandLine.lintBytes streams options linter bytes).code =
        (if (linter.lint (String.ofList text)).hasErrors then 1 else 0) ∧
      (CommandLine.lintBytes streams options linter bytes).stdout =
        Terminal.Console.output ⟨options.colored, streams.outKeepsEscapes⟩
          (linter.signals (String.ofList text))) ∧
    ∀ before text after : String, text ≠ "" → (∀ c ∈ before.toList, IsGap c) →
      (∀ c ∈ after.toList, IsGap c) → linter.SameRun (before ++ text ++ after) text := by
  refine ⟨?_, ?_, ?_, ?_, ?_⟩
  · intro text
    apply sameRun_of_lint_eq
    apply lint_eq_of_onOneLine_eq
    rw [Statement.text, String.toList_ofList, Statement.chars_ofString, onOneLine_onOneLine]
  · intro first second same
    exact sameRun_of_lint_eq (lint_eq_of_onOneLine_eq linter same.onOneLine_eq)
  · intro config text
    simp only [SchemaLint.lint, lint_markBreaks]
  · intro streams options bytes text decoded
    have run := sameRun_of_lint_eq (lint_markBreaks linter text)
    simp only [CommandLine.lintBytes, decoded, run.1, run.2, and_self]
  · intro before text after filled gapsBefore gapsAfter
    exact sameRun_of_lint_eq (lint_padded linter gapsBefore gapsAfter filled)

theorem lint_layout_standard :
    standard.SameRun "create table x\r\n/drop table x" "create table x /drop table x" ∧
    (CommandLine.lintBytes {} {} standard [0x61, 0x0D, 0x0A, 0x62]).code =
      (if (standard.lint (String.ofList ['a', '\r', '\n', 'b'])).hasErrors then 1 else 0) ∧
    standard.SameRun ("/\r" ++ "\ncreate table x\r" ++ "\n/ ") "\ncreate table x\r" := by
  obtain ⟨-, restyled, -, run, padded⟩ := lint_layout standard
  exact ⟨restyled _ _ (by decide +kernel), (run {} {} _ _ rfl).1,
    padded _ _ _ (by decide) (forall_mem_of_all rfl) (forall_mem_of_all rfl)⟩

end Linter
end SchemaLint
