import Mathlib.Data.List.Forall2
import SchemaLint.Proofs.ScriptContext

/-! Scripts that are put together at a terminator. Every statement is linted as
in its own script, but for the tables that the other script drops. -/
namespace SchemaLint

open Text Phrase

/-- The later outcomes are the earlier ones, and some more of the rule. -/
structure OnlyGains (ruleId : String) (earlier later : List Outcome) : Prop where
  kept : earlier.Sublist later
  others : (earlier.filter fun outcome => outcome.ruleId != ruleId) =
    later.filter fun outcome => outcome.ruleId != ruleId

namespace OnlyGains

variable {ruleId : String} {earlier later : List Outcome}

theorem refl (ruleId : String) (outcomes : List Outcome) : OnlyGains ruleId outcomes outcomes :=
  ⟨List.Sublist.refl _, rfl⟩

theorem append {earlier' later' : List Outcome} (first : OnlyGains ruleId earlier later)
    (second : OnlyGains ruleId earlier' later') :
    OnlyGains ruleId (earlier ++ earlier') (later ++ later') := by
  refine ⟨first.kept.append second.kept, ?_⟩
  rw [List.filter_append, List.filter_append, first.others, second.others]

theorem of_nil (own : ∀ outcome ∈ later, outcome.ruleId = ruleId) : OnlyGains ruleId [] later := by
  refine ⟨List.nil_sublist _, ?_⟩
  rw [List.filter_nil, eq_comm, List.filter_eq_nil_iff]
  intro outcome member
  simp [own outcome member]

theorem flatMap {entries : List (Definition × Rule)}
    {first second : Definition × Rule → List Outcome}
    (each : ∀ entry ∈ entries, OnlyGains ruleId (first entry) (second entry)) :
    OnlyGains ruleId (entries.flatMap first) (entries.flatMap second) := by
  induction entries with
  | nil => exact refl _ _
  | cons entry entries ih =>
    have rest := ih fun other member => each other (List.mem_cons_of_mem _ member)
    exact (each entry List.mem_cons_self).append rest

/-- Outcomes of other rules stay as many as they were, so whoever has no more of
the rule has nothing new. -/
theorem eq_of_count (gains : OnlyGains ruleId earlier later)
    (count : later.countP (·.ruleId == ruleId) ≤ earlier.countP (·.ruleId == ruleId)) :
    earlier = later := by
  apply gains.kept.eq_of_length_le
  have others := congrArg List.length gains.others
  have parts : ∀ outcomes : List Outcome, outcomes.length =
      (outcomes.filter fun outcome => outcome.ruleId == ruleId).length +
        (outcomes.filter fun outcome => !(outcome.ruleId == ruleId)).length :=
    fun _ => List.length_eq_length_filter_add _
  have before := parts earlier
  have after := parts later
  simp only [List.countP_eq_length_filter] at count
  simp only [bne] at others
  omega

end OnlyGains

/-- The same statement, in a script that may drop more tables. -/
structure StatementResult.Gains (alone together : StatementResult) : Prop where
  statement : alone.statement = together.statement
  outcomes : OnlyGains "temp-table-naming" alone.outcomes together.outcomes

/-- The number of outcomes of a rule. -/
def Report.countRule (ruleId : String) (report : Report) : Nat :=
  report.outcomes.countP (·.ruleId == ruleId)

section Counting

variable {alone together : List StatementResult}

theorem outcomes_sublist (gains : List.Forall₂ StatementResult.Gains alone together) :
    (alone.flatMap (·.outcomes)).Sublist (together.flatMap (·.outcomes)) := by
  induction gains with
  | nil => exact List.Sublist.refl _
  | cons first _ ih =>
    rw [List.flatMap_cons, List.flatMap_cons]
    exact first.outcomes.kept.append ih

theorem eq_of_gains (gains : List.Forall₂ StatementResult.Gains alone together)
    (count : (together.flatMap (·.outcomes)).countP (·.ruleId == "temp-table-naming") ≤
      (alone.flatMap (·.outcomes)).countP (·.ruleId == "temp-table-naming")) :
    alone = together := by
  induction gains with
  | nil => rfl
  | @cons result result' rest rest' first others ih =>
    -- no statement can make up for what another one gains
    have here := first.outcomes.kept.countP_le (p := (·.ruleId == "temp-table-naming"))
    have later := (outcomes_sublist others).countP_le (p := (·.ruleId == "temp-table-naming"))
    rw [List.flatMap_cons, List.flatMap_cons, List.countP_append, List.countP_append] at count
    have outcomes := first.outcomes.eq_of_count (by omega)
    have same : result = result' := by
      cases result
      cases result'
      exact congr (congrArg StatementResult.mk first.statement) outcomes
    rw [same, ih (by omega)]

end Counting

theorem Report.counts_append {first second whole : Report}
    (results : whole.results = first.results ++ second.results) :
    whole.total = first.total + second.total ∧ whole.passed = first.passed + second.passed ∧
      whole.failed = first.failed + second.failed ∧
      ∀ severity, whole.count severity = first.count severity + second.count severity := by
  have total : whole.total = first.total + second.total := by
    rw [Report.total, results, List.length_append]
    rfl
  have passed : whole.passed = first.passed + second.passed := by
    rw [Report.passed, results, List.countP_append]
    rfl
  have passedFirst : first.passed ≤ first.total := List.countP_le_length
  have passedSecond : second.passed ≤ second.total := List.countP_le_length
  refine ⟨total, passed, ?_, ?_⟩
  · simp only [failed]
    omega
  · intro severity
    rw [count, outcomes, results, List.flatMap_append, List.countP_append]
    rfl

namespace Linter

variable {catalog : Catalog} {registry : Registry} {config : Config} {linter : Linter}

theorem entryOutcomes_gains {script other : Statement} (more : PhrasesIn script other)
    {entry : Definition × Rule} (named : entry.2.id = entry.1.ruleId) (policy : Policy)
    (statement : Statement) :
    OnlyGains "temp-table-naming" (entryOutcomes policy (some script) statement entry)
      (entryOutcomes policy (some other) statement entry) := by
  by_cases temp : entry.2 = .tempTableName
  · cases found : Check.tempTable? policy.tempPrefix (some script) statement with
    | none =>
      have silent : entryOutcomes policy (some script) statement entry = [] := by
        simp [entryOutcomes_rule, temp, Rule.violations, Rule.violation?, found]
      rw [silent]
      apply OnlyGains.of_nil
      intro outcome member
      rw [ruleId_of_mem_entryOutcomes member, ← named, temp]
      rfl
    | some violation =>
      have again := Check.tempTable?_of_phrasesIn more found
      have same : entryOutcomes policy (some script) statement entry =
          entryOutcomes policy (some other) statement entry := by
        simp only [entryOutcomes_rule, temp, Rule.violations, Rule.violation?, found, again]
      rw [same]
      exact .refl _ _
  · rw [entryOutcomes_rule, Rule.violations_eq_of_ne_tempTableName temp policy _ (some other)]
    exact .refl _ _

theorem evaluate_gains (built : build catalog registry config = .ok linter)
    {script other : Statement} (more : PhrasesIn script other) (statement : Statement) :
    (linter.evaluate (some script) statement).Gains (linter.evaluate (some other) statement) := by
  refine ⟨rfl, ?_⟩
  rw [outcomes_evaluate, outcomes_evaluate]
  apply OnlyGains.flatMap
  intro entry member
  exact entryOutcomes_gains more (Registry.id_of_find? (registered_of_build built member)) _ _

end Linter

theorem Statement.chars_append_terminator (first second : String) :
    (Statement.ofString (first ++ "/" ++ second)).chars =
      (Statement.ofString first).chars ++ terminator :: (Statement.ofString second).chars := by
  simp only [chars_ofString, String.toList_append, List.append_assoc]
  exact onOneLine_append_cons rfl _ _

namespace Linter

variable {catalog : Catalog} {registry : Registry} {config : Config} {linter : Linter}

theorem results_append (built : build catalog registry config = .ok linter)
    (first second : String) :
    List.Forall₂ StatementResult.Gains ((linter.lint first).results ++ (linter.lint second).results)
      (linter.lint (first ++ "/" ++ second)).results := by
  have inFirst : PhrasesIn (.ofString first) (.ofString (first ++ "/" ++ second)) := by
    intro words found
    rw [Statement.chars_append_terminator]
    exact occurs_append_terminator found _
  have inSecond : PhrasesIn (.ofString second) (.ofString (first ++ "/" ++ second)) := by
    intro words found
    rw [Statement.chars_append_terminator, ← List.singleton_append, ← List.append_assoc]
    exact occurs_append_right found _
  simp only [results_lint, Script.statements_append_terminator, List.map_append]
  apply List.rel_append
  · rw [List.forall₂_map_left_iff, List.forall₂_map_right_iff, List.forall₂_same]
    exact fun statement _ => evaluate_gains built inFirst _
  · rw [List.forall₂_map_left_iff, List.forall₂_map_right_iff, List.forall₂_same]
    exact fun statement _ => evaluate_gains built inSecond _

theorem count_append_le (built : build catalog registry config = .ok linter)
    (first second : String) (severity : Severity) :
    (linter.lint first).count severity + (linter.lint second).count severity ≤
      (linter.lint (first ++ "/" ++ second)).count severity := by
  have more := (outcomes_sublist (results_append built first second)).countP_le
    (p := (·.severity == severity))
  rw [List.flatMap_append, List.countP_append] at more
  exact more

theorem hasErrors_lint_iff (linter : Linter) {script : String} (filled : script ≠ "") :
    (linter.lint script).hasErrors = true ↔ 0 < (linter.lint script).count .error := by
  rw [Report.hasErrors, error?_lint, if_neg filled]
  simp

/-- Composition of scripts. -/
theorem lint_append (built : build catalog registry config = .ok linter) (first second : String) :
    List.Forall₂ StatementResult.Gains ((linter.lint first).results ++ (linter.lint second).results)
      (linter.lint (first ++ "/" ++ second)).results ∧
    (first ≠ "" → second ≠ "" →
      ((linter.lint (first ++ "/" ++ second)).countRule "temp-table-naming" ≤
          (linter.lint first).countRule "temp-table-naming" +
            (linter.lint second).countRule "temp-table-naming" →
        (linter.lint (first ++ "/" ++ second)).total =
          (linter.lint first).total + (linter.lint second).total ∧
        (linter.lint (first ++ "/" ++ second)).passed =
          (linter.lint first).passed + (linter.lint second).passed ∧
        (linter.lint (first ++ "/" ++ second)).failed =
          (linter.lint first).failed + (linter.lint second).failed ∧
        ∀ severity, (linter.lint (first ++ "/" ++ second)).count severity =
          (linter.lint first).count severity + (linter.lint second).count severity) ∧
      ((linter.lint first).hasErrors = true ∨ (linter.lint second).hasErrors = true →
        (linter.lint (first ++ "/" ++ second)).hasErrors = true)) := by
  have gains := results_append built first second
  refine ⟨gains, ?_⟩
  intro filledFirst filledSecond
  refine ⟨?_, ?_⟩
  · intro noGain
    have results : (linter.lint first).results ++ (linter.lint second).results =
        (linter.lint (first ++ "/" ++ second)).results := by
      apply eq_of_gains gains
      rw [List.flatMap_append, List.countP_append]
      exact noGain
    exact Report.counts_append results.symm
  · intro errors
    have filled : first ++ "/" ++ second ≠ "" := by
      intro empty
      have length := congrArg String.length empty
      simp at length
    have more := count_append_le built first second .error
    rw [hasErrors_lint_iff linter filledFirst, hasErrors_lint_iff linter filledSecond] at errors
    rw [hasErrors_lint_iff linter filled]
    omega

theorem lint_append_apart :
    (standard.lint "create table x").hasErrors = true ∧
    (standard.lint ("create table x" ++ "/" ++ "drop table y")).countRule "temp-table-naming" = 0 ∧
    (standard.lint ("create table x" ++ "/" ++ "drop table y")).count .error =
      (standard.lint "create table x").count .error + (standard.lint "drop table y").count .error ∧
    (standard.lint ("create table x" ++ "/" ++ "drop table y")).hasErrors = true := by
  have errors : (standard.lint "create table x").hasErrors = true := by decide +kernel
  have noGain : (standard.lint ("create table x" ++ "/" ++ "drop table y")).countRule
      "temp-table-naming" = 0 := by decide +kernel
  obtain ⟨-, filled⟩ := lint_append build_standard "create table x" "drop table y"
  obtain ⟨counts, hasErrors⟩ := filled (by decide) (by decide)
  exact ⟨errors, noGain, (counts (by omega)).2.2.2 .error, hasErrors (Or.inl errors)⟩

end Linter
end SchemaLint
