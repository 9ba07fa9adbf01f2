import SchemaLint.Proofs.Evaluation
import SchemaLint.Proofs.FollowingWord
import SchemaLint.Proofs.ScriptSplitting

/-! How the script enters the evaluation of a statement. Only the rule for
temporary tables looks at it, and only for the phrase that drops the table which
the statement creates. -/
namespace SchemaLint

open Text Phrase

namespace Phrase

/-- A name gives a phrase of three words. -/
theorem words_drop_table {name : List Char} (filled : name ≠ [])
    (solid : ∀ c ∈ name, isBlank c = false) :
    words ("drop table ".toList ++ name) = ["drop".toList, "table".toList, name] := by
  have blank : isBlank ' ' = true := rfl
  have spelled : "drop table ".toList ++ name =
      "drop".toList ++ ' ' :: ("table".toList ++ ' ' :: name) := rfl
  rw [spelled, words_append_blank blank, words_append_blank blank, words_of_solid filled solid]
  rfl

end Phrase

namespace Statement

theorem contains_eq_occurs (statement : Statement) (phrase : String) :
    statement.contains phrase = occurs (words phrase.toList) statement.chars := rfl

end Statement

namespace Check

theorem dropped?_eq_some_iff {start : String} {script statement : Statement}
    {violation : Violation} :
    dropped? start script statement = some violation ↔
      ∃ table, statement.contains "create table" = true ∧
        statement.nextWord? "create table" = some table ∧
        script.contains ("drop table " ++ table) = true ∧ hasPrefix start table = false ∧
        violation = .droppedInScript table := by
  constructor
  · intro found
    unfold dropped? at found
    split at found
    · rename_i creates
      split at found
      · rename_i table name
        split at found
        · rename_i drops
          obtain ⟨dropped, unnamed⟩ := Bool.and_eq_true_iff.mp drops
          exact ⟨table, creates, name, dropped, by simpa using unnamed,
            (Option.some.inj found).symm⟩
        · cases found
      · cases found
    · cases found
  · rintro ⟨table, creates, name, dropped, unnamed, rfl⟩
    rw [dropped?, if_pos creates, name]
    simp only [dropped, unnamed, Bool.not_false, Bool.and_self, if_true]

end Check

/-- The phrases of one script are all found in the other. -/
def PhrasesIn (script other : Statement) : Prop :=
  ∀ words, occurs words script.chars = true → occurs words other.chars = true

/-- No phrase without gaps in its words tells the scripts apart. -/
def SamePhrases (script other : Statement) : Prop :=
  ∀ words, Solid words → occurs words script.chars = occurs words other.chars

theorem Phrase.solid_drop_table {statement : Statement} (unbroken : terminator ∉ statement.chars)
    {name : String} (found : statement.nextWord? "create table" = some name) :
    Solid (words ("drop table " ++ name).toList) := by
  obtain ⟨filled, inside⟩ := Statement.nextWord?_eq_some found
  have solid : ∀ c ∈ name.toList, ¬ IsGap c := by
    rintro c member (blank | rfl)
    · rw [(inside c member).1] at blank
      cases blank
    · exact unbroken (inside _ member).2
  rw [String.toList_append, words_drop_table filled fun c member => (inside c member).1]
  intro word member
  simp only [List.mem_cons, List.not_mem_nil, or_false] at member
  rcases member with rfl | rfl | rfl
  · exact ⟨by decide, forall_mem_of_all rfl⟩
  · exact ⟨by decide, forall_mem_of_all rfl⟩
  · exact ⟨filled, solid⟩

namespace Check

theorem dropped?_congr {script other : Statement} (same : SamePhrases script other)
    {statement : Statement} (unbroken : terminator ∉ statement.chars) (start : String) :
    dropped? start script statement = dropped? start other statement := by
  apply Option.ext
  intro violation
  simp only [dropped?_eq_some_iff]
  apply exists_congr
  intro table
  apply and_congr_right
  intro _
  apply and_congr_right
  intro name
  have agree := same _ (solid_drop_table unbroken name)
  rw [Statement.contains_eq_occurs, Statement.contains_eq_occurs, agree]

/-- A table that is dropped in one script is dropped in every script with more
phrases. -/
theorem tempTable?_of_phrasesIn {script other : Statement} (more : PhrasesIn script other)
    {start : String} {statement : Statement} {violation : Violation}
    (found : tempTable? start (some script) statement = some violation) :
    tempTable? start (some other) statement = some violation := by
  rw [tempTable?, Option.or_eq_some_iff] at found ⊢
  rcases found with temporary | ⟨none_temporary, dropped⟩
  · exact Or.inl temporary
  · obtain ⟨table, creates, name, drops, unnamed, same⟩ := dropped?_eq_some_iff.mp dropped
    exact Or.inr ⟨none_temporary,
      dropped?_eq_some_iff.mpr ⟨table, creates, name, more _ drops, unnamed, same⟩⟩

end Check

theorem Rule.violations_congr {script other : Statement} (same : SamePhrases script other)
    {statement : Statement} (unbroken : terminator ∉ statement.chars) (policy : Policy)
    (rule : Rule) :
    rule.violations policy (some script) statement =
      rule.violations policy (some other) statement := by
  cases rule with
  | tempTableName =>
    simp only [violations, violation?, Check.tempTable?, Option.bind_some,
      Check.dropped?_congr same unbroken]
  | tableTablespace | indexTablespace | noDoubleQuotes | constraintName _ => rfl

/-- The other rules do not look at the script at all. -/
theorem Rule.violations_eq_of_ne_tempTableName {rule : Rule} (other : rule ≠ .tempTableName)
    (policy : Policy) (script? script'? : Option Statement) (statement : Statement) :
    rule.violations policy script? statement = rule.violations policy script'? statement := by
  cases rule with
  | tempTableName => exact absurd rfl other
  | tableTablespace | indexTablespace | noDoubleQuotes | constraintName _ => rfl

theorem Linter.evaluate_congr {script other : Statement} (same : SamePhrases script other)
    {statement : Statement} (unbroken : terminator ∉ statement.chars) (linter : Linter) :
    linter.evaluate (some script) statement = linter.evaluate (some other) statement := by
  simp only [evaluate, findings, Evaluator.violations_rule, Rule.violations_congr same unbroken]

theorem Script.terminator_not_mem_chars {text : List Char} (unbroken : terminator ∉ text) :
    terminator ∉ (Statement.ofString (String.ofList text)).chars := by
  rw [Statement.chars_ofString, String.toList_ofList]
  intro member
  rcases mem_of_mem_onOneLine member with space | present
  · cases space
  · exact unbroken present

/-- The statements of a script are judged alike in the light of any script with
the same phrases. -/
theorem Linter.map_evaluate_congr {script other : Statement} (same : SamePhrases script other)
    (linter : Linter) (text : String) :
    ((Script.statements text).map fun statement =>
        linter.evaluate (some script) (.ofString statement)) =
      (Script.statements text).map fun statement =>
        linter.evaluate (some other) (.ofString statement) := by
  apply List.map_congr_left
  intro statement member
  obtain ⟨segment, present, rfl⟩ := List.mem_map.mp member
  have alone := Script.standalone_of_mem_segments present
  exact evaluate_congr same (Script.terminator_not_mem_chars alone.unbroken) linter

theorem Linter.results_lint (linter : Linter) (script : String) :
    (linter.lint script).results = (Script.statements script).map fun statement =>
      linter.evaluate (some (.ofString script)) (.ofString statement) := by
  unfold lint
  split
  · rename_i empty
    subst empty
    rfl
  · rfl

theorem Linter.outcomes_lint_eq_filter (linter : Linter) (script : String) :
    (linter.lint script).outcomes = (linter.withAllRules.lint script).outcomes.filter
      fun outcome => linter.config.selection.Runs outcome.ruleId := by
  simp only [Report.outcomes, results_lint, List.flatMap_map, List.filter_flatMap,
    ← outcomes_evaluate_eq_filter]

theorem Linter.error?_lint (linter : Linter) (script : String) :
    (linter.lint script).error? = if script = "" then some Report.emptyMessage else none := by
  unfold lint
  split <;> rfl

theorem Linter.lint_of_ne_empty (linter : Linter) {script : String} (filled : script ≠ "") :
    linter.lint script = .linted (linter.lint script).results := by
  rw [lint, if_neg filled]
  rfl

end SchemaLint
