import Mathlib.Data.List.Nodup
import SchemaLint.Proofs.Evaluation

/-! Rules do not see each other. The outcomes of a linter are those of its active
entries, each linting on its own; so a selection of rules only chooses among the
outcomes that there are without one. -/
namespace SchemaLint

/-- What is reported of a statement that breaks a naming convention. -/
def Definition.misnaming (definition : Definition) (convention : NamingConvention) : Outcome :=
  ⟨definition.ruleId, definition.severity, definition.message
    (some s!"Fails test for {convention.label}, format should be {convention.format}.")⟩

theorem Definition.failure_isPrefix_message (definition : Definition) (remark? : Option String) :
    definition.failure.toList <+: (definition.message remark?).toList := by
  unfold Definition.message
  split
  · exact List.prefix_rfl
  · exact List.prefix_rfl
  · rw [String.append_assoc, String.toList_append]
    exact List.prefix_append _ _

theorem Rule.exists_constraintName {rule : Rule} (named : rule.id = "constraint-naming") :
    ∃ conventions, rule = .constraintName conventions := by
  cases rule with
  | constraintName conventions => exact ⟨conventions, rfl⟩
  | tableTablespace | indexTablespace | tempTableName | noDoubleQuotes => simp [Rule.id] at named

/-- Each convention that is broken is named by its violation. -/
theorem Check.exists_of_judge? {convention : NamingConvention} {found? : Option (Nat × Clause)}
    {violation : Violation} (broken : Check.judge? convention found? = some violation) :
    ∃ declared expected, violation = .misnamed convention declared expected := by
  unfold Check.judge? at broken
  split at broken
  · cases broken
  · dsimp only at broken
    split at broken
    · cases broken
    · exact ⟨_, _, (Option.some.inj broken).symm⟩

namespace Linter

section AnyEvaluator

variable {ρ : Type} [Evaluator ρ] {catalog : Catalog} {registry : Registry ρ} {config : Config}
  {linter : Linter ρ} {script? : Option Statement} {statement : Statement}

/-- The linter of a single entry, with the same policy. -/
def alone (registry : Registry ρ) (config : Config) (definition : Definition) : Linter ρ where
  entries := (registry.find? definition.ruleId).toList.map (definition, ·)
  config := { config with selection := {} }

theorem build_alone {definition : Definition} {rule : ρ}
    (found : registry.find? definition.ruleId = some rule) :
    build [definition] registry { config with selection := {} } =
      .ok (alone registry config definition) := by
  rw [build_eq_ok_iff]
  refine ⟨⟨?_, ?_, ?_, ?_⟩, rfl, ?_⟩
  · simp [alone, found]
  · simp [alone, found]
  · simp
  · simp
  · simp [Selection.named]

theorem outcomes_alone {entry : Definition × ρ}
    (found : registry.find? entry.1.ruleId = some entry.2) :
    ((alone registry config entry.1).evaluate script? statement).outcomes =
      entryOutcomes config.policy script? statement entry := by
  rw [outcomes_evaluate]
  simp [activeEntries, alone, found, Selection.runs]

theorem outcomes_eq_flatMap_alone (built : build catalog registry config = .ok linter) :
    (linter.evaluate script? statement).outcomes = linter.active.flatMap fun definition =>
      ((alone registry config definition).evaluate script? statement).outcomes := by
  rw [outcomes_evaluate, active, List.flatMap_map, (build_eq_ok_iff.mp built).2.1]
  apply List.flatMap_congr
  intro entry member
  exact (outcomes_alone (registered_of_build built member)).symm

/-- Without a selection a linter that can be built at all runs every entry. -/
theorem exists_build_full (built : build catalog registry config = .ok linter) :
    ∃ full, build catalog registry { config with selection := {} } = .ok full ∧
      full.active = catalog := by
  obtain ⟨resolved, -, -⟩ := build_eq_ok_iff.mp built
  have full : build catalog registry { config with selection := {} } =
      .ok ⟨linter.entries, { config with selection := {} }⟩ :=
    build_eq_ok_iff.mpr ⟨resolved, rfl, by simp [Selection.named]⟩
  refine ⟨_, full, ?_⟩
  rw [active_of_build full]
  apply List.filter_eq_self.mpr
  intro definition _
  rfl

theorem outcomes_eq_filter (built : build catalog registry config = .ok linter)
    {selection : Selection} {full : Linter ρ}
    (fullBuilt : build catalog registry { config with selection := selection } = .ok full)
    (everything : full.active = catalog) :
    (linter.evaluate script? statement).outcomes =
      (full.evaluate script? statement).outcomes.filter fun outcome =>
        config.selection.runs outcome.ruleId := by
  obtain ⟨resolved, rfl, -⟩ := build_eq_ok_iff.mp built
  obtain ⟨fullResolved, fullConfig, -⟩ := build_eq_ok_iff.mp fullBuilt
  -- both linters resolve the same catalog, and the full one drops none of its entries
  have entries : full.entries = linter.entries := by
    have same := (resolve_eq_ok_iff.mpr fullResolved).symm.trans (resolve_eq_ok_iff.mpr resolved)
    exact Except.ok.inj same
  have all : full.activeEntries = full.entries := by
    apply List.Sublist.eq_of_length List.filter_sublist
    have count := congrArg List.length (everything.trans fullResolved.catalog_eq.symm)
    simpa only [active, activeEntries, List.length_map] using count
  rw [outcomes_evaluate, outcomes_evaluate, all, entries, fullConfig, activeEntries,
    flatMap_filter_entryOutcomes linter.config.selection.runs]

theorem exists_entry_of_outcome (built : build catalog registry config = .ok linter)
    {outcome : Outcome} (member : outcome ∈ (linter.evaluate script? statement).outcomes) :
    ∃ definition ∈ linter.active, outcome.severity = definition.severity ∧
      definition.failure.toList <+: outcome.message.toList ∧
      ∀ other ∈ catalog, other.ruleId = outcome.ruleId ↔ other = definition := by
  rw [outcomes_evaluate, List.mem_flatMap] at member
  obtain ⟨entry, present, member⟩ := member
  obtain ⟨violation, -, rfl⟩ := List.mem_map.mp member
  refine ⟨entry.1, List.mem_map_of_mem present, rfl, entry.1.failure_isPrefix_message _, ?_⟩
  obtain ⟨resolved, -, -⟩ := build_eq_ok_iff.mp built
  have own : entry.1 ∈ catalog := by
    rw [← resolved.catalog_eq]
    exact List.mem_map_of_mem (List.mem_filter.mp present).1
  intro other listed
  constructor
  · intro same
    exact List.inj_on_of_nodup_map resolved.distinct listed own same
  · rintro rfl
    rfl

theorem filter_outcomes_eq_entryOutcomes (built : build catalog registry config = .ok linter)
    {entry : Definition × ρ} (present : entry ∈ linter.activeEntries) :
    ((linter.evaluate script? statement).outcomes.filter fun outcome =>
      outcome.ruleId == entry.1.ruleId) = entryOutcomes config.policy script? statement entry := by
  obtain ⟨-, rfl, -⟩ := build_eq_ok_iff.mp built
  rw [outcomes_evaluate, ← flatMap_filter_entryOutcomes (· == entry.1.ruleId),
    filter_ruleId_eq_singleton (distinct_activeEntries built) present, List.flatMap_singleton]

/-- A rule that judges conventions, by whatever search, reports each of them once at
most and in their order. -/
theorem entryOutcomes_misnamedBy {entry : Definition × ρ} {policy : Policy}
    {search : NamingConvention → List Char → Option (Nat × Clause)}
    {conventions : List NamingConvention}
    (judges : Evaluator.violations policy script? statement entry.2 =
      Check.misnamedBy search conventions statement) :
    entryOutcomes policy script? statement entry =
      (conventions.filter fun convention =>
        (Check.judge? convention (search convention statement.chars)).isSome).map
          entry.1.misnaming := by
  rw [entryOutcomes, judges, Check.misnamedBy]
  clear judges
  induction conventions with
  | nil => rfl
  | cons convention conventions ih =>
    cases judged : Check.judge? convention (search convention statement.chars) with
    | none =>
      simp only [List.filterMap_cons, List.filter_cons, judged, Option.isSome_none,
        Bool.false_eq_true, if_false, ih]
    | some violation =>
      obtain ⟨declared, expected, rfl⟩ := Check.exists_of_judge? judged
      simp only [List.filterMap_cons, List.filter_cons, judged, Option.isSome_some, if_true,
        List.map_cons, ih]
      rfl

end AnyEvaluator

variable {catalog : Catalog} {registry : Registry} {config : Config} {linter : Linter}
  {script? : Option Statement} {statement : Statement}

theorem passed_iff_violation? (built : build catalog registry config = .ok linter) :
    (linter.evaluate script? statement).passed = true ↔
      ∀ definition ∈ linter.active, ∃ rule, registry.find? definition.ruleId = some rule ∧
        rule.violation? config.policy script? statement = none := by
  obtain ⟨-, rfl, -⟩ := build_eq_ok_iff.mp built
  rw [StatementResult.passed, List.isEmpty_iff, outcomes_evaluate, List.flatMap_eq_nil_iff]
  constructor
  · intro silent definition member
    obtain ⟨entry, present, rfl⟩ := List.mem_map.mp member
    refine ⟨entry.2, registered_of_build built present, ?_⟩
    have none_found := List.map_eq_nil_iff.mp (silent entry present)
    exact (Rule.violations_eq_nil_iff entry.2).mp none_found
  · intro silent entry present
    obtain ⟨rule, found, passes⟩ := silent entry.1 (List.mem_map_of_mem present)
    obtain rfl : rule = entry.2 :=
      Option.some.inj (found.symm.trans (registered_of_build built present))
    exact List.map_eq_nil_iff.mpr ((Rule.violations_eq_nil_iff entry.2).mpr passes)

/-- A severity is reported if and only if a rule that runs under it is violated. -/
theorem exists_severity_iff (built : build catalog registry config = .ok linter)
    (severity : Severity) :
    (∃ outcome ∈ (linter.evaluate script? statement).outcomes, outcome.severity = severity) ↔
      ∃ definition ∈ catalog, config.selection.runs definition.ruleId = true ∧
        definition.severity = severity ∧ ∃ rule, registry.find? definition.ruleId = some rule ∧
          rule.violation? config.policy script? statement ≠ none := by
  obtain ⟨resolved, rfl, -⟩ := build_eq_ok_iff.mp built
  simp only [outcomes_evaluate, List.mem_flatMap, ne_eq, ← Rule.violations_eq_nil_iff]
  constructor
  · rintro ⟨outcome, ⟨entry, present, member⟩, rfl⟩
    obtain ⟨violation, found, rfl⟩ := List.mem_map.mp member
    obtain ⟨listed, runs⟩ := List.mem_filter.mp present
    refine ⟨entry.1, ?_, runs, rfl, entry.2, resolved.registered entry listed, ?_⟩
    · rw [← resolved.catalog_eq]
      exact List.mem_map_of_mem listed
    · exact List.ne_nil_of_mem found
  · rintro ⟨definition, listed, runs, rfl, rule, found, violated⟩
    rw [← resolved.catalog_eq] at listed
    obtain ⟨entry, present, rfl⟩ := List.mem_map.mp listed
    obtain rfl : rule = entry.2 :=
      Option.some.inj (found.symm.trans (resolved.registered entry present))
    obtain ⟨violation, member⟩ := List.exists_mem_of_ne_nil _ violated
    exact ⟨_, ⟨entry, List.mem_filter.mpr ⟨present, runs⟩, List.mem_map_of_mem member⟩, rfl⟩

/-- Rule isolation. The last two parts say how often an entry can report. -/
theorem evaluate_isolated (built : build catalog registry config = .ok linter)
    (script? : Option Statement) (statement : Statement) :
    (∃ single : Definition → Linter,
      (∀ definition ∈ linter.active,
        build [definition] registry { config with selection := {} } = .ok (single definition)) ∧
      (linter.evaluate script? statement).outcomes = linter.active.flatMap fun definition =>
        ((single definition).evaluate script? statement).outcomes) ∧
    linter.active = (catalog.filter fun definition => config.selection.runs definition.ruleId) ∧
    (∃ full, build catalog registry { config with selection := {} } = .ok full ∧
      full.active = catalog) ∧
    (∀ selection full,
      build catalog registry { config with selection := selection } = .ok full →
      full.active = catalog →
      (linter.evaluate script? statement).outcomes =
        (full.evaluate script? statement).outcomes.filter fun outcome =>
          config.selection.runs outcome.ruleId) ∧
    ((linter.evaluate script? statement).passed = true ↔
      ∀ definition ∈ linter.active, ∃ rule, registry.find? definition.ruleId = some rule ∧
        rule.violation? config.policy script? statement = none) ∧
    (∀ outcome ∈ (linter.evaluate script? statement).outcomes, ∃ definition ∈ linter.active,
      outcome.severity = definition.severity ∧
      definition.failure.toList <+: outcome.message.toList ∧
      ∀ other ∈ catalog, other.ruleId = outcome.ruleId ↔ other = definition) ∧
    (∀ definition ∈ linter.active, definition.ruleId ≠ "constraint-naming" →
      ((linter.evaluate script? statement).outcomes.filter fun outcome =>
        outcome.ruleId == definition.ruleId).length ≤ 1) ∧
    ∀ definition ∈ linter.active, definition.ruleId = "constraint-naming" →
      ∃ conventions broken : List NamingConvention,
        registry.find? definition.ruleId = some (.constraintName conventions) ∧
        broken.Sublist conventions ∧
        ((linter.evaluate script? statement).outcomes.filter fun outcome =>
          outcome.ruleId == definition.ruleId) = broken.map definition.misnaming := by
  refine ⟨⟨alone registry config, ?_, outcomes_eq_flatMap_alone built⟩, active_of_build built,
    exists_build_full built, fun _ _ => outcomes_eq_filter built, passed_iff_violation? built,
    fun _ => exists_entry_of_outcome built, ?_, ?_⟩
  · intro definition member
    obtain ⟨entry, present, rfl⟩ := List.mem_map.mp member
    exact build_alone (registered_of_build built present)
  · intro definition member single
    obtain ⟨entry, present, rfl⟩ := List.mem_map.mp member
    have identified := Registry.id_of_find? (registered_of_build built present)
    rw [filter_outcomes_eq_entryOutcomes built present, entryOutcomes, List.length_map]
    exact Rule.length_violations_le_one (identified ▸ single)
  · intro definition member named
    obtain ⟨⟨definition, rule⟩, present, rfl⟩ := List.mem_map.mp member
    have found := registered_of_build built present
    have identified := Registry.id_of_find? found
    obtain ⟨conventions, rfl⟩ := Rule.exists_constraintName (identified.trans named)
    refine ⟨conventions, conventions.filter fun convention =>
      (Check.misnamed? statement convention).isSome, found, List.filter_sublist, ?_⟩
    rw [filter_outcomes_eq_entryOutcomes built present]
    exact entryOutcomes_misnamedBy rfl

theorem evaluate_isolated_without_quotes :
    ∃ linter, build Catalog.standard Registry.standard
        { selection := { disabled := ["no-double-quotes"] } } = .ok linter ∧
      ∀ script? statement, (linter.evaluate script? statement).outcomes =
        (standard.evaluate script? statement).outcomes.filter fun outcome =>
          outcome.ruleId != "no-double-quotes" := by
  have built : build Catalog.standard Registry.standard
      { selection := { disabled := ["no-double-quotes"] } } =
        .ok { standard with config := { selection := { disabled := ["no-double-quotes"] } } } := rfl
  refine ⟨_, built, ?_⟩
  intro script? statement
  have chosen := (evaluate_isolated built script? statement).2.2.2.1 {} standard build_standard rfl
  rw [chosen]
  apply List.filter_congr
  intro outcome _
  rw [Bool.eq_iff_iff]
  simp [Selection.runs]

end Linter
end SchemaLint
