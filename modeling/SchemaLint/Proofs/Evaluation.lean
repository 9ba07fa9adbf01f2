import SchemaLint.Proofs.Building

/-! The evaluation of a statement, entry by entry. What an entry reports depends
on its own rule alone, and its reports can be told from all others by their rule
id. -/
namespace SchemaLint

namespace Rule

variable {policy : Policy} {script? : Option Statement} {statement : Statement}

theorem violations_eq_nil_iff (rule : Rule) :
    rule.violations policy script? statement = [] ↔
      rule.violation? policy script? statement = none := by
  cases rule <;> simp [violations, violation?]

theorem length_violations_le_one {rule : Rule} (single : rule.id ≠ "constraint-naming") :
    (rule.violations policy script? statement).length ≤ 1 := by
  have toList : ∀ found : Option Violation, found.toList.length ≤ 1 := by
    intro found
    cases found <;> simp
  cases rule with
  | constraintName conventions => exact absurd rfl single
  | tableTablespace | indexTablespace | tempTableName | noDoubleQuotes => exact toList _

end Rule

namespace Linter

variable {ρ : Type} [Evaluator ρ] {policy : Policy} {script? : Option Statement}
  {statement : Statement}

/-- What an entry reports about a statement. -/
def entryOutcomes (policy : Policy) (script? : Option Statement) (statement : Statement)
    (entry : Definition × ρ) : List Outcome :=
  (Evaluator.violations policy script? statement entry.2).map fun violation =>
    Finding.outcome ⟨entry.1, violation⟩

theorem entryOutcomes_rule (policy : Policy) (script? : Option Statement) (statement : Statement)
    (entry : Definition × Rule) :
    entryOutcomes policy script? statement entry =
      (entry.2.violations policy script? statement).map fun violation =>
        Finding.outcome ⟨entry.1, violation⟩ := rfl

theorem outcomes_evaluate (linter : Linter ρ) (script? : Option Statement) (statement : Statement) :
    (linter.evaluate script? statement).outcomes =
      linter.activeEntries.flatMap (entryOutcomes linter.config.policy script? statement) := by
  simp only [evaluate, findings, List.map_flatMap, List.map_map]
  rfl

theorem ruleId_of_mem_entryOutcomes {entry : Definition × ρ} {outcome : Outcome}
    (member : outcome ∈ entryOutcomes policy script? statement entry) :
    outcome.ruleId = entry.1.ruleId := by
  obtain ⟨violation, -, rfl⟩ := List.mem_map.mp member
  rfl

/-- To choose among the entries is to choose among the outcomes. -/
theorem flatMap_filter_entryOutcomes (runs : String → Bool) (entries : List (Definition × ρ)) :
    (entries.filter fun entry => runs entry.1.ruleId).flatMap
        (entryOutcomes policy script? statement) =
      (entries.flatMap (entryOutcomes policy script? statement)).filter fun outcome =>
        runs outcome.ruleId := by
  induction entries with
  | nil => rfl
  | cons entry entries ih =>
    rw [List.flatMap_cons, List.filter_append, ← ih]
    cases chosen : runs entry.1.ruleId with
    | true =>
      have kept : (entryOutcomes policy script? statement entry).filter
          (fun outcome => runs outcome.ruleId) = entryOutcomes policy script? statement entry := by
        apply List.filter_eq_self.mpr
        intro outcome member
        rw [ruleId_of_mem_entryOutcomes member, chosen]
      rw [List.filter_cons_of_pos (by simpa using chosen), List.flatMap_cons, kept]
    | false =>
      have dropped : (entryOutcomes policy script? statement entry).filter
          (fun outcome => runs outcome.ruleId) = [] := by
        apply List.filter_eq_nil_iff.mpr
        intro outcome member
        rw [ruleId_of_mem_entryOutcomes member, chosen]
        exact Bool.false_ne_true
      rw [List.filter_cons_of_neg (by simp [chosen]), dropped, List.nil_append]

/-- The linter with every rule on. -/
def withAllRules (linter : Linter ρ) : Linter ρ :=
  { linter with config := { linter.config with selection := {} } }

omit [Evaluator ρ] in
theorem activeEntries_withAllRules (linter : Linter ρ) :
    linter.withAllRules.activeEntries = linter.entries :=
  List.filter_eq_self.mpr fun _ _ => rfl

/-- A selection chooses among the outcomes that there are with every rule on. -/
theorem outcomes_evaluate_eq_filter (linter : Linter ρ) (script? : Option Statement)
    (statement : Statement) :
    (linter.evaluate script? statement).outcomes =
      (linter.withAllRules.evaluate script? statement).outcomes.filter fun outcome =>
        linter.config.selection.Runs outcome.ruleId := by
  simp only [← Selection.runs_eq_decide]
  rw [outcomes_evaluate, outcomes_evaluate, activeEntries_withAllRules, activeEntries,
    flatMap_filter_entryOutcomes linter.config.selection.runs]
  rfl

omit [Evaluator ρ] in
theorem active_eq_filter (linter : Linter ρ) :
    linter.active = linter.catalog.filter fun definition =>
      linter.config.selection.runs definition.ruleId := by
  rw [active, activeEntries, catalog, List.filter_map]
  rfl

omit [Evaluator ρ] in
theorem filter_ruleId_eq_singleton {entries : List (Definition × ρ)}
    (distinct : (entries.map (·.1.ruleId)).Nodup) {entry : Definition × ρ}
    (member : entry ∈ entries) :
    entries.filter (fun other => other.1.ruleId == entry.1.ruleId) = [entry] := by
  induction entries with
  | nil => cases member
  | cons first entries ih =>
    rw [List.map_cons, List.nodup_cons] at distinct
    obtain ⟨unused, distinct⟩ := distinct
    rcases List.mem_cons.mp member with rfl | later
    · rw [List.filter_cons_of_pos (by simp), List.cons.injEq]
      refine ⟨rfl, List.filter_eq_nil_iff.mpr ?_⟩
      intro other present same
      exact unused (List.mem_map.mpr ⟨other, present, beq_iff_eq.mp same⟩)
    · have other : ¬ (first.1.ruleId == entry.1.ruleId) = true := by
        intro same
        exact unused (List.mem_map.mpr ⟨entry, later, (beq_iff_eq.mp same).symm⟩)
      rw [List.filter_cons, if_neg other, ih distinct later]

section Built

variable {catalog : Catalog} {registry : Registry ρ} {config : Config} {linter : Linter ρ}

theorem active_of_build (built : build catalog registry config = .ok linter) :
    linter.active = catalog.filter fun definition => config.selection.runs definition.ruleId := by
  obtain ⟨resolved, rfl, -⟩ := build_eq_ok_iff.mp built
  rw [active_eq_filter, ← resolved.catalog_eq]
  rfl

theorem distinct_activeEntries (built : build catalog registry config = .ok linter) :
    (linter.activeEntries.map (·.1.ruleId)).Nodup := by
  obtain ⟨resolved, -, -⟩ := build_eq_ok_iff.mp built
  have distinct := resolved.distinct
  rw [← resolved.catalog_eq, List.map_map] at distinct
  exact distinct.sublist (List.filter_sublist.map _)

theorem registered_of_build (built : build catalog registry config = .ok linter)
    {entry : Definition × ρ} (member : entry ∈ linter.activeEntries) :
    registry.find? entry.1.ruleId = some entry.2 :=
  (build_eq_ok_iff.mp built).1.registered entry (List.mem_filter.mp member).1

end Built

end Linter
end SchemaLint
