import Mathlib.Data.List.Induction
import Mathlib.Data.List.Nodup
import SchemaLint.Proofs.Evaluation

/-! Why a linter cannot be built. The first bad entry of the catalog is to blame,
whatever the configuration says; only a catalog without one lets the configuration
be blamed for the ids that it makes up. -/
namespace SchemaLint

section Ascending

variable {id other : String} {ids : List String}

theorem mem_insertAscending : other ∈ insertAscending id ids ↔ other = id ∨ other ∈ ids := by
  fun_induction insertAscending id ids with
  | case1 => simp
  | case2 next rest _ => simp
  | case3 rest _ => simp
  | case4 next rest _ _ ih =>
    simp only [List.mem_cons, ih]
    exact or_left_comm

theorem pairwise_insertAscending (sorted : ids.Pairwise (· < ·)) :
    (insertAscending id ids).Pairwise (· < ·) := by
  fun_induction insertAscending id ids with
  | case1 => exact List.pairwise_singleton _ _
  | case2 next rest below =>
    refine List.pairwise_cons.mpr ⟨?_, sorted⟩
    intro later member
    rcases List.mem_cons.mp member with rfl | member
    · exact below
    · exact String.lt_trans below (List.rel_of_pairwise_cons sorted member)
  | case3 rest _ => exact sorted
  | case4 next rest notBelow differs ih =>
    obtain ⟨least, sorted⟩ := List.pairwise_cons.mp sorted
    refine List.pairwise_cons.mpr ⟨?_, ih sorted⟩
    intro later member
    rcases mem_insertAscending.mp member with rfl | member
    · by_contra notAbove
      exact differs (String.le_antisymm (String.not_lt.mp notAbove) (String.not_lt.mp notBelow))
    · exact least later member

theorem mem_ascending : id ∈ ascending ids ↔ id ∈ ids := by
  induction ids with
  | nil => simp [ascending]
  | cons first rest ih =>
    rw [ascending, List.foldr_cons, mem_insertAscending, List.mem_cons]
    exact or_congr_right ih

theorem pairwise_ascending (ids : List String) : (ascending ids).Pairwise (· < ·) := by
  induction ids with
  | nil => exact List.Pairwise.nil
  | cons first rest ih => exact pairwise_insertAscending ih

/-- There is only one way to put ids in ascending order. -/
theorem eq_ascending_iff {sorted : List String} :
    ascending ids = sorted ↔ sorted.Pairwise (· < ·) ∧ ∀ id, id ∈ sorted ↔ id ∈ ids := by
  constructor
  · rintro rfl
    exact ⟨pairwise_ascending ids, fun _ => mem_ascending⟩
  · rintro ⟨ordered, members⟩
    have nodup : ∀ {texts : List String}, texts.Pairwise (· < ·) → texts.Nodup := by
      intro texts below
      apply below.imp
      rintro text _ smaller rfl
      exact String.lt_irrefl text smaller
    have perm : (ascending ids).Perm sorted := by
      rw [List.perm_ext_iff_of_nodup (nodup (pairwise_ascending ids)) (nodup ordered)]
      exact fun id => mem_ascending.trans (members id).symm
    apply perm.eq_of_pairwise _ (pairwise_ascending ids) ordered
    intro first second _ _ below above
    exact absurd above (String.lt_asymm below)

end Ascending

/-- The code points of a text in their order. -/
def codePoints (text : String) : List Nat := text.toList.map Char.toNat

theorem codePoints_lt_iff {first second : String} :
    codePoints first < codePoints second ↔ first < second := by
  change first.toList.map Char.toNat < second.toList.map Char.toNat ↔
    first.toList < second.toList
  generalize first.toList = left, second.toList = right
  induction left generalizing right with
  | nil => cases right <;> simp
  | cons c left ih =>
    cases right with
    | nil => simp
    | cons d right =>
      rw [List.map_cons, List.map_cons, List.cons_lt_cons_iff, List.cons_lt_cons_iff, ih,
        Char.toNat_inj]
      rfl

/-- Each entry of the catalog has a rule, and an id of its own. -/
structure Catalog.Sound {ρ : Type} [Evaluator ρ] (registry : Registry ρ) (catalog : Catalog) : Prop where
  distinct : (catalog.map (·.ruleId)).Nodup
  registered : ∀ definition ∈ catalog, registry.find? definition.ruleId ≠ none

/-- The first entry that is bad: its id occurred in an earlier entry, or it has
no rule. -/
structure Catalog.FirstBad {ρ : Type} [Evaluator ρ] (registry : Registry ρ)
    (catalog before : Catalog) (definition : Definition) : Prop where
  stands : before ++ [definition] <+: catalog
  bad : definition.ruleId ∈ before.map (·.ruleId) ∨ registry.find? definition.ruleId = none
  earlier : before.Sound registry

namespace Catalog

variable {ρ : Type} [Evaluator ρ] {registry : Registry ρ} {catalog : Catalog}

theorem sound_concat_iff {definition : Definition} :
    Sound registry (catalog ++ [definition]) ↔
      catalog.Sound registry ∧ definition.ruleId ∉ catalog.map (·.ruleId) ∧
        registry.find? definition.ruleId ≠ none := by
  constructor
  · rintro ⟨distinct, registered⟩
    rw [List.map_append, List.map_singleton, ← List.concat_eq_append, List.nodup_concat] at distinct
    refine ⟨⟨distinct.2, fun other member => registered other (List.mem_append_left _ member)⟩,
      distinct.1, registered definition (by simp)⟩
  · rintro ⟨⟨distinct, registered⟩, new, found⟩
    refine ⟨?_, ?_⟩
    · rw [List.map_append, List.map_singleton, ← List.concat_eq_append, List.nodup_concat]
      exact ⟨new, distinct⟩
    · intro other member
      rcases List.mem_append.mp member with present | last
      · exact registered other present
      · rwa [List.mem_singleton.mp last]

theorem exists_firstBad (unsound : ¬ catalog.Sound registry) :
    ∃ before definition, FirstBad registry catalog before definition := by
  induction catalog using List.reverseRecOn with
  | nil => exact absurd ⟨List.nodup_nil, by simp⟩ unsound
  | append_singleton before definition ih =>
    by_cases earlier : Sound registry before
    · refine ⟨before, definition, List.prefix_rfl, ?_, earlier⟩
      by_contra good
      rw [not_or] at good
      exact unsound (sound_concat_iff.mpr ⟨earlier, good⟩)
    · obtain ⟨start, first, stands, bad, sound⟩ := ih earlier
      exact ⟨start, first, stands.trans (List.prefix_append _ _), bad, sound⟩

theorem FirstBad.not_sound {before : Catalog} {definition : Definition}
    (first : FirstBad registry catalog before definition) : ¬ catalog.Sound registry := by
  intro sound
  have start : Sound registry (before ++ [definition]) :=
    ⟨sound.distinct.sublist (first.stands.sublist.map _),
      fun other member => sound.registered other (first.stands.subset member)⟩
  obtain ⟨-, new, found⟩ := sound_concat_iff.mp start
  exact first.bad.elim new found

end Catalog

namespace Linter

variable {ρ : Type} [Evaluator ρ] {registry : Registry ρ} {catalog : Catalog} {config : Config}

theorem sound_iff_exists_resolved :
    catalog.Sound registry ↔ ∃ entries, Resolved registry [] catalog entries := by
  constructor
  · rintro ⟨distinct, registered⟩
    have entries : ∃ entries : List (Definition × ρ), entries.map (·.1) = catalog ∧
        ∀ entry ∈ entries, registry.find? entry.1.ruleId = some entry.2 := by
      clear distinct
      induction catalog with
      | nil => exact ⟨[], rfl, by simp⟩
      | cons definition catalog ih =>
        obtain ⟨rule, found⟩ := Option.ne_none_iff_exists'.mp
          (registered definition List.mem_cons_self)
        obtain ⟨entries, same, found_all⟩ := ih fun other member =>
          registered other (List.mem_cons_of_mem _ member)
        refine ⟨(definition, rule) :: entries, by rw [List.map_cons, same], ?_⟩
        intro entry member
        rcases List.mem_cons.mp member with rfl | later
        · exact found
        · exact found_all entry later
    obtain ⟨entries, same, found⟩ := entries
    exact ⟨entries, same, found, distinct, by simp⟩
  · rintro ⟨entries, same, found, distinct, -⟩
    refine ⟨distinct, ?_⟩
    intro definition member missing
    rw [← same] at member
    obtain ⟨entry, present, rfl⟩ := List.mem_map.mp member
    rw [found entry present] at missing
    cases missing

theorem sound_standard : Catalog.standard.Sound Registry.standard :=
  sound_iff_exists_resolved.mpr ⟨_, (build_eq_ok_iff.mp build_standard).1⟩

/-- Sound entries are passed by, with their ids on record. -/
theorem resolve_append_eq_error {before rest : Catalog} {seen : List String} {fault : ConfigFault}
    (sound : before.Sound registry) (fresh : ∀ definition ∈ before, definition.ruleId ∉ seen)
    (failed : resolve registry ((before.map (·.ruleId)).reverse ++ seen) rest = .error fault) :
    resolve registry seen (before ++ rest) = .error fault := by
  induction before generalizing seen with
  | nil => exact failed
  | cons definition before ih =>
    obtain ⟨distinct, registered⟩ := sound
    obtain ⟨unused, distinct⟩ := List.nodup_cons.mp distinct
    obtain ⟨rule, found⟩ := Option.ne_none_iff_exists'.mp
      (registered definition List.mem_cons_self)
    have later : resolve registry (definition.ruleId :: seen) (before ++ rest) = .error fault := by
      apply ih ⟨distinct, fun other member => registered other (List.mem_cons_of_mem _ member)⟩
      · intro other member repeated
        rcases List.mem_cons.mp repeated with same | earlier
        · exact unused (List.mem_map.mpr ⟨other, member, same⟩)
        · exact fresh other (List.mem_cons_of_mem _ member) earlier
      · rwa [List.map_cons, List.reverse_cons, List.append_assoc] at failed
    have new := fresh definition List.mem_cons_self
    rw [List.cons_append, resolve, if_neg (by simpa using new), found]
    simp only [later, Except.map]

theorem resolve_of_firstBad {before : Catalog} {definition : Definition}
    (first : Catalog.FirstBad registry catalog before definition) :
    resolve registry [] catalog =
      .error (if definition.ruleId ∈ before.map (·.ruleId) then .repeatedRule definition.ruleId
        else .unregisteredRule definition.ruleId) := by
  obtain ⟨after, rfl⟩ := first.stands
  rw [List.append_assoc, List.singleton_append]
  apply resolve_append_eq_error first.earlier (by simp)
  rw [resolve]
  by_cases occurred : definition.ruleId ∈ before.map (·.ruleId)
  · rw [if_pos (by simpa using occurred), if_pos occurred]
  · have missing := first.bad.resolve_left occurred
    rw [if_neg (by simpa using occurred), if_neg occurred, missing]

theorem build_of_firstBad {before : Catalog} {definition : Definition}
    (first : Catalog.FirstBad registry catalog before definition) :
    build catalog registry config =
      .error (if definition.ruleId ∈ before.map (·.ruleId) then .repeatedRule definition.ruleId
        else .unregisteredRule definition.ruleId) := by
  rw [build, resolve_of_firstBad first]

/-- With a sound catalog only the configuration can be at fault. -/
theorem build_eq_error_iff (sound : catalog.Sound registry) {fault : ConfigFault} :
    build catalog registry config = .error fault ↔
      ∃ first others, fault = .unknownRules first others ∧
        (first :: others).Pairwise (· < ·) ∧
        ∀ ruleId, ruleId ∈ first :: others ↔
          ruleId ∈ config.selection.named ∧ ruleId ∉ catalog.map (·.ruleId) := by
  obtain ⟨entries, resolved⟩ := sound_iff_exists_resolved.mp sound
  have unknown : ∀ first others, ascending (config.selection.named.filter fun ruleId =>
      !(catalog.map (·.ruleId)).contains ruleId) = first :: others ↔
      (first :: others).Pairwise (· < ·) ∧ ∀ ruleId, ruleId ∈ first :: others ↔
        ruleId ∈ config.selection.named ∧ ruleId ∉ catalog.map (·.ruleId) := by
    intro first others
    simp only [eq_ascending_iff, List.mem_filter, Bool.not_eq_true', ← Bool.not_eq_true,
      List.contains_iff_mem]
  simp only [← unknown, build, resolve_eq_ok_iff.mpr resolved]
  cases ascending (config.selection.named.filter fun ruleId =>
      !(catalog.map (·.ruleId)).contains ruleId) with
  | nil => simp
  | cons first others =>
    simp only [Except.error.injEq, List.cons.injEq]
    constructor
    · rintro rfl
      exact ⟨first, others, rfl, rfl, rfl⟩
    · rintro ⟨_, _, rfl, rfl, rfl⟩
      rfl

theorem exists_error_iff :
    (∃ fault, build catalog registry config = .error fault) ↔
      ¬ catalog.Sound registry ∨
        ∃ ruleId ∈ config.selection.named, ruleId ∉ catalog.map (·.ruleId) := by
  by_cases sound : catalog.Sound registry
  · simp only [build_eq_error_iff sound, sound, not_true_eq_false, false_or]
    constructor
    · rintro ⟨_, first, others, rfl, -, unknown⟩
      exact ⟨first, (unknown first).mp List.mem_cons_self⟩
    · intro unknown
      by_contra built
      cases found : build catalog registry config with
      | error fault => exact built ⟨fault, (build_eq_error_iff sound).mp found⟩
      | ok linter =>
        obtain ⟨ruleId, named, missing⟩ := unknown
        exact missing ((build_eq_ok_iff.mp found).2.2 ruleId named)
  · obtain ⟨before, definition, first⟩ := Catalog.exists_firstBad sound
    simp only [sound, not_false_eq_true, true_or, iff_true]
    exact ⟨_, build_of_firstBad first⟩

end Linter

theorem Catalog.not_sound_iff {ρ : Type} [Evaluator ρ] {registry : Registry ρ}
    {catalog : Catalog} : ¬ catalog.Sound registry ↔ ¬ (catalog.map (·.ruleId)).Nodup ∨
      ∃ definition ∈ catalog, registry.find? definition.ruleId = none := by
  constructor
  · intro unsound
    by_contra good
    rw [not_or, not_not] at good
    exact unsound ⟨good.1, fun definition member missing => good.2 ⟨definition, member, missing⟩⟩
  · rintro (repeated | ⟨definition, member, missing⟩) sound
    · exact repeated sound.distinct
    · exact sound.registered definition member missing

/-- The selection disables the rule, or lists it among the only ones to run. -/
def Selection.Names (selection : Selection) (ruleId : String) : Prop :=
  ruleId ∈ selection.disabled ∨ ∃ ids, selection.only = some ids ∧ ruleId ∈ ids

theorem Selection.mem_named_iff {selection : Selection} {ruleId : String} :
    ruleId ∈ selection.named ↔ selection.Names ruleId := by
  rw [named, List.mem_append, Names]
  apply or_congr_right
  cases selection.only <;> simp

namespace Linter

/-- When and why a linter cannot be built. -/
theorem build_faults {ρ : Type} [Evaluator ρ] (catalog : Catalog) (registry : Registry ρ)
    (config : Config) :
    ((∃ fault, build catalog registry config = .error fault) ↔
      ¬ (catalog.map (·.ruleId)).Nodup ∨
      (∃ definition ∈ catalog, registry.find? definition.ruleId = none) ∨
      ∃ ruleId, config.selection.Names ruleId ∧ ruleId ∉ catalog.map (·.ruleId)) ∧
    ((¬ (catalog.map (·.ruleId)).Nodup ∨
        ∃ definition ∈ catalog, registry.find? definition.ruleId = none) ↔
      ∃ before definition, Catalog.FirstBad registry catalog before definition) ∧
    (∀ before definition, Catalog.FirstBad registry catalog before definition →
      ∃ fault, build catalog registry config = .error fault ∧
        fault.ruleId = definition.ruleId ∧
        (definition.ruleId ∈ before.map (·.ruleId) →
          fault.message = s!"Rule '{definition.ruleId}' appears twice in the catalog.") ∧
        (definition.ruleId ∉ before.map (·.ruleId) → fault.message =
          s!"There is some issue with the configuration of rule: {definition.ruleId}. " ++
            "No evaluator is registered for it.")) ∧
    ((catalog.map (·.ruleId)).Nodup →
      (∀ definition ∈ catalog, registry.find? definition.ruleId ≠ none) →
      ∀ fault, build catalog registry config = .error fault →
        ∃ first others, fault.ruleId = first ∧
          fault.message =
            "Unknown rule(s) in configuration: " ++ ", ".intercalate (first :: others) ++ "." ∧
          (first :: others).Pairwise (fun earlier later => codePoints earlier < codePoints later) ∧
          ∀ ruleId, ruleId ∈ first :: others ↔
            config.selection.Names ruleId ∧ ruleId ∉ catalog.map (·.ruleId)) ∧
    ∀ linter, build catalog registry config = .ok linter →
      (catalog.map (·.ruleId)).Nodup ∧ linter.active.Sublist catalog := by
  refine ⟨?_, ?_, ?_, ?_, ?_⟩
  · rw [exists_error_iff, Catalog.not_sound_iff, or_assoc]
    simp only [Selection.mem_named_iff]
  · rw [← Catalog.not_sound_iff]
    constructor
    · exact Catalog.exists_firstBad
    · rintro ⟨before, definition, first⟩
      exact first.not_sound
  · intro before definition first
    refine ⟨_, build_of_firstBad first, ?_⟩
    by_cases occurred : definition.ruleId ∈ before.map (·.ruleId)
    · rw [if_pos occurred]
      exact ⟨rfl, fun _ => rfl, fun new => absurd occurred new⟩
    · rw [if_neg occurred]
      exact ⟨rfl, fun repeated => absurd repeated occurred, fun _ => rfl⟩
  · intro distinct registered fault failed
    obtain ⟨first, others, rfl, sorted, unknown⟩ :=
      (build_eq_error_iff ⟨distinct, registered⟩).mp failed
    refine ⟨first, others, rfl, rfl, ?_, ?_⟩
    · simpa only [codePoints_lt_iff] using sorted
    · simpa only [Selection.mem_named_iff] using unknown
  · intro linter built
    refine ⟨(build_eq_ok_iff.mp built).1.distinct, ?_⟩
    rw [active_of_build built]
    exact List.filter_sublist

/-- An entry that is missing and repeated, in a catalog that the configuration
does not fit either. -/
theorem build_faults_missing_first :
    ∃ fault, build
        [⟨"no-double-quotes", .warning, "", ""⟩, ⟨"zz", .error, "", ""⟩, ⟨"zz", .error, "", ""⟩]
        Registry.standard { selection := { disabled := ["b", "a"] } } = .error fault ∧
      fault.ruleId = "zz" ∧ fault.message =
        "There is some issue with the configuration of rule: zz. " ++
          "No evaluator is registered for it." := by
  obtain ⟨-, -, blamed, -⟩ := build_faults
    [⟨"no-double-quotes", .warning, "", ""⟩, ⟨"zz", .error, "", ""⟩, ⟨"zz", .error, "", ""⟩]
    Registry.standard { selection := { disabled := ["b", "a"] } }
  have first : Catalog.FirstBad Registry.standard
      [⟨"no-double-quotes", .warning, "", ""⟩, ⟨"zz", .error, "", ""⟩, ⟨"zz", .error, "", ""⟩]
      [⟨"no-double-quotes", .warning, "", ""⟩] ⟨"zz", .error, "", ""⟩ :=
    ⟨by simp, .inr rfl, by decide, by decide⟩
  obtain ⟨fault, failed, culprit, -, unregistered⟩ := blamed _ _ first
  exact ⟨fault, failed, culprit, unregistered (by decide)⟩

end Linter
end SchemaLint
