import Mathlib.Data.List.Nodup
import SchemaLint.Linter

/-! Which linters can be built, and what is known of one that was. -/
namespace SchemaLint

theorem ascending_eq_nil_iff {ids : List String} : ascending ids = [] ↔ ids = [] := by
  cases ids with
  | nil => simp [ascending]
  | cons id rest =>
    have filled : ∀ others, insertAscending id others ≠ [] := by
      intro others
      fun_cases insertAscending id others <;> simp
    simpa [ascending] using filled _

/-- The rule runs: rules are not off, and it is one of the only ones to run, or else
there are no such ones and it is not disabled. -/
def Selection.Runs (selection : Selection) (ruleId : String) : Prop :=
  selection.enabled = true ∧
    (selection.only = none ∧ ruleId ∉ selection.disabled ∨
      ∃ ruleIds ∈ selection.only, ruleId ∈ ruleIds)

instance (selection : Selection) (ruleId : String) : Decidable (selection.Runs ruleId) :=
  inferInstanceAs (Decidable (_ ∧ _))

theorem Selection.runs_iff {selection : Selection} {ruleId : String} :
    selection.runs ruleId = true ↔ selection.Runs ruleId := by
  rw [runs, Bool.and_eq_true, Runs]
  cases selection.only <;> simp

theorem Selection.runs_eq_decide (selection : Selection) (ruleId : String) :
    selection.runs ruleId = decide (selection.Runs ruleId) := by
  rw [Bool.eq_iff_iff, runs_iff, decide_eq_true_iff]

namespace Registry

variable {ρ : Type} [Evaluator ρ] {registry : Registry ρ} {ruleId : String} {rule : ρ}

theorem find?_eq_none_iff :
    registry.find? ruleId = none ↔ ∀ rule ∈ registry.rules, Evaluator.id rule ≠ ruleId := by
  simp [find?]

theorem find?_ne_none_iff :
    registry.find? ruleId ≠ none ↔ ∃ rule ∈ registry.rules, Evaluator.id rule = ruleId := by
  rw [ne_eq, find?_eq_none_iff]
  simp

theorem mem_of_find? (found : registry.find? ruleId = some rule) :
    rule ∈ registry.rules ∧ Evaluator.id rule = ruleId := by
  have matched := List.find?_some found
  exact ⟨List.mem_of_find?_eq_some found, by simpa using matched⟩

/-- Where no two rules share an id, a rule is found by its own. -/
theorem find?_eq_some_iff (distinct : (registry.rules.map Evaluator.id).Nodup) :
    registry.find? ruleId = some rule ↔ rule ∈ registry.rules ∧ Evaluator.id rule = ruleId := by
  constructor
  · exact mem_of_find?
  · rintro ⟨member, rfl⟩
    cases found : registry.find? (Evaluator.id rule) with
    | none => exact absurd rfl (find?_eq_none_iff.mp found rule member)
    | some other =>
      obtain ⟨present, same⟩ := mem_of_find? found
      rw [List.inj_on_of_nodup_map distinct present member same]

theorem register?_eq_none_iff :
    registry.register? rule = none ↔
      ∃ other ∈ registry.rules, Evaluator.id other = Evaluator.id rule := by
  rw [← find?_ne_none_iff, register?]
  cases registry.find? (Evaluator.id rule) <;> simp

theorem rules_of_register? {after : Registry ρ} (added : registry.register? rule = some after) :
    after.rules = registry.rules ++ [rule] := by
  rw [register?] at added
  split at added
  · cases added
  · rw [← Option.some.inj added]

theorem distinct_standard : (standard.rules.map (·.id)).Nodup := by decide

theorem id_of_find? {registry : Registry} {rule : Rule}
    (found : registry.find? ruleId = some rule) : rule.id = ruleId :=
  (mem_of_find? found).2

end Registry

namespace Linter

variable {ρ : Type} [Evaluator ρ]

/-- Each entry of the catalog stands beside the rule that the registry has for
it, and its id is new. -/
structure Resolved (registry : Registry ρ) (seen : List String) (catalog : Catalog)
    (entries : List (Definition × ρ)) : Prop where
  catalog_eq : entries.map (·.1) = catalog
  registered : ∀ entry ∈ entries, registry.find? entry.1.ruleId = some entry.2
  distinct : (catalog.map (·.ruleId)).Nodup
  fresh : ∀ definition ∈ catalog, definition.ruleId ∉ seen

theorem Resolved.cons_iff {registry : Registry ρ} {seen : List String} {definition : Definition}
    {catalog : Catalog} {rule : ρ} {entries : List (Definition × ρ)} :
    Resolved registry seen (definition :: catalog) ((definition, rule) :: entries) ↔
      definition.ruleId ∉ seen ∧ registry.find? definition.ruleId = some rule ∧
        Resolved registry (definition.ruleId :: seen) catalog entries := by
  constructor
  · rintro ⟨same, registered, distinct, fresh⟩
    obtain ⟨unused, distinct⟩ := List.nodup_cons.mp distinct
    refine ⟨fresh definition List.mem_cons_self, registered _ List.mem_cons_self,
      (List.cons.inj same).2, fun entry member => registered entry (List.mem_cons_of_mem _ member),
      distinct, ?_⟩
    intro other member
    rw [List.mem_cons, not_or]
    refine ⟨?_, fresh other (List.mem_cons_of_mem _ member)⟩
    intro repeated
    exact unused (List.mem_map.mpr ⟨other, member, repeated⟩)
  · rintro ⟨new, found, same, registered, distinct, fresh⟩
    refine ⟨by rw [List.map_cons, same], ?_, ?_, ?_⟩
    · rintro entry member
      rcases List.mem_cons.mp member with rfl | later
      · exact found
      · exact registered entry later
    · refine List.nodup_cons.mpr ⟨?_, distinct⟩
      intro member
      obtain ⟨other, present, repeated⟩ := List.mem_map.mp member
      exact fresh other present (repeated ▸ List.mem_cons_self)
    · intro other member
      rcases List.mem_cons.mp member with rfl | later
      · exact new
      · exact fun repeated => fresh other later (List.mem_cons_of_mem _ repeated)

theorem resolve_eq_ok_iff {registry : Registry ρ} {seen : List String} {catalog : Catalog}
    {entries : List (Definition × ρ)} :
    resolve registry seen catalog = .ok entries ↔ Resolved registry seen catalog entries := by
  induction catalog generalizing seen entries with
  | nil =>
    simp only [resolve, Except.ok.injEq]
    constructor
    · rintro rfl
      exact ⟨rfl, by simp, List.nodup_nil, by simp⟩
    · intro resolved
      exact (List.map_eq_nil_iff.mp resolved.catalog_eq).symm
  | cons definition catalog ih =>
    constructor
    · intro built
      rw [resolve] at built
      split at built
      · cases built
      · rename_i new
        split at built
        · cases built
        · rename_i rule found
          cases rest : resolve registry (definition.ruleId :: seen) catalog with
          | error fault =>
            rw [rest] at built
            cases built
          | ok others =>
            rw [rest] at built
            cases built
            exact Resolved.cons_iff.mpr ⟨by simpa using new, found, ih.mp rest⟩
    · intro resolved
      obtain ⟨⟨first, rule⟩, others, rfl⟩ : ∃ entry others, entries = entry :: others := by
        refine List.exists_cons_of_ne_nil ?_
        rintro rfl
        cases resolved.catalog_eq
      obtain rfl : first = definition := (List.cons.inj resolved.catalog_eq).1
      obtain ⟨new, found, rest⟩ := Resolved.cons_iff.mp resolved
      rw [resolve, if_neg (by simpa using new), found]
      simp only [ih.mpr rest, Except.map]

/-- A linter is built exactly when every entry is resolved and the selection
names only rules of the catalog. -/
theorem build_eq_ok_iff {catalog : Catalog} {registry : Registry ρ} {config : Config}
    {linter : Linter ρ} :
    build catalog registry config = .ok linter ↔
      Resolved registry [] catalog linter.entries ∧ linter.config = config ∧
        ∀ ruleId ∈ config.selection.named, ruleId ∈ catalog.map (·.ruleId) := by
  have known : (config.selection.named.filter fun ruleId =>
      !(catalog.map (·.ruleId)).contains ruleId) = [] ↔
      ∀ ruleId ∈ config.selection.named, ruleId ∈ catalog.map (·.ruleId) := by
    simp [List.filter_eq_nil_iff]
  rw [← resolve_eq_ok_iff, ← known, ← ascending_eq_nil_iff, build]
  cases resolve registry [] catalog with
  | error fault => simp
  | ok entries =>
    simp only [Except.ok.injEq]
    split
    · rename_i none_unknown
      rw [none_unknown]
      constructor
      · intro same
        obtain rfl := Except.ok.inj same
        exact ⟨rfl, rfl, rfl⟩
      · rintro ⟨rfl, rfl, -⟩
        rfl
    · rename_i some_unknown
      constructor
      · intro same
        cases same
      · rintro ⟨-, -, none_unknown⟩
        rw [some_unknown] at none_unknown
        cases none_unknown

end Linter
end SchemaLint
