import SchemaLint.Proofs.BuildFaults
import SchemaLint.Session

/-! Linters by what they were opened with and the settings that were made for them
since. Of these follow their entries, the rule of each entry and what every field
of their configuration says, so no two linters have them in common. -/
namespace SchemaLint

/-- The fields of a configuration. -/
inductive Field where
  | enabled
  | disabled
  | only
  | tableTablespaces
  | indexTablespaces
  | tempPrefix
  | separator
  deriving DecidableEq

def Setting.field : Setting → Field
  | .enabled _ => .enabled
  | .disabled _ => .disabled
  | .only _ => .only
  | .tableTablespaces _ => .tableTablespaces
  | .indexTablespaces _ => .indexTablespaces
  | .tempPrefix _ => .tempPrefix
  | .separator _ => .separator

namespace Config

/-- What a field says, as the setting that makes it say so. -/
def value (config : Config) : Field → Setting
  | .enabled => .enabled config.selection.enabled
  | .disabled => .disabled config.selection.disabled
  | .only => .only config.selection.only
  | .tableTablespaces => .tableTablespaces config.policy.tableTablespaces
  | .indexTablespaces => .indexTablespaces config.policy.indexTablespaces
  | .tempPrefix => .tempPrefix config.policy.tempPrefix
  | .separator => .separator config.separator

/-- What a field says after some settings: what the last setting of it says, or what
it said before. -/
def settled (config : Config) (settings : List Setting) (field : Field) : Setting :=
  (settings.reverse.find? (·.field == field)).getD (config.value field)

theorem eq_of_value_eq {config other : Config}
    (same : ∀ field, config.value field = other.value field) : config = other := by
  obtain ⟨⟨enabled, disabled, only⟩, ⟨tables, indexes, start⟩, separator⟩ := config
  obtain ⟨⟨enabled', disabled', only'⟩, ⟨tables', indexes', start'⟩, separator'⟩ := other
  obtain rfl := Setting.enabled.inj (same .enabled)
  obtain rfl := Setting.disabled.inj (same .disabled)
  obtain rfl := Setting.only.inj (same .only)
  obtain rfl := Setting.tableTablespaces.inj (same .tableTablespaces)
  obtain rfl := Setting.indexTablespaces.inj (same .indexTablespaces)
  obtain rfl := Setting.tempPrefix.inj (same .tempPrefix)
  obtain rfl := Setting.separator.inj (same .separator)
  rfl

theorem value_set (config : Config) (setting : Setting) (field : Field) :
    (config.set setting).value field =
      if setting.field = field then setting else config.value field := by
  cases setting <;> cases field <;> rfl

theorem settled_append (config : Config) (first second : List Setting) (field : Field) :
    config.settled (first ++ second) field =
      (second.reverse.find? (·.field == field)).getD (config.settled first field) := by
  rw [settled, List.reverse_append, List.find?_append, Option.getD_or, settled]

theorem value_foldl_set (config : Config) (settings : List Setting) (field : Field) :
    (settings.foldl set config).value field = config.settled settings field := by
  induction settings using List.reverseRecOn with
  | nil => rfl
  | append_singleton settings setting ih =>
    rw [List.foldl_append, List.foldl_cons, List.foldl_nil, value_set, ih, settled_append]
    by_cases own : setting.field = field
    · simp [own]
    · simp [own]

end Config

/-- What a linter is opened with. -/
structure Opening where
  drafts : List Draft
  config : Config
  rules : List Rule

/-- Nothing stands against the opening: there are such severities, each entry has an
id of its own and a rule, and the configuration names entries only. -/
structure Opening.Sound (opening : Opening) : Prop where
  severities : ∀ draft ∈ opening.drafts, draft.severity = "error" ∨ draft.severity = "warning"
  distinct : (opening.drafts.map (·.ruleId)).Nodup
  registered : ∀ draft ∈ opening.drafts, ∃ rule ∈ opening.rules, rule.id = draft.ruleId
  disabled : ∀ ruleId ∈ opening.config.selection.disabled, ruleId ∈ opening.drafts.map (·.ruleId)
  only : ∀ ruleIds ∈ opening.config.selection.only, ∀ ruleId ∈ ruleIds,
    ruleId ∈ opening.drafts.map (·.ruleId)

instance (opening : Opening) : Decidable opening.Sound :=
  decidable_of_iff (_ ∧ _ ∧ _ ∧ _ ∧ _)
    ⟨fun ⟨severities, distinct, registered, disabled, only⟩ =>
      ⟨severities, distinct, registered, disabled, only⟩,
    fun ⟨severities, distinct, registered, disabled, only⟩ =>
      ⟨severities, distinct, registered, disabled, only⟩⟩

/-- An opening, and the settings that were made after it. -/
structure Description where
  opening : Opening
  settings : List Setting := []

namespace Description

/-- The linter has the entries and the rules of the opening, and each field of its
configuration says what the last setting of it says. -/
structure Fits (description : Description) (linter : Linter) : Prop where
  catalog : linter.catalog.map Draft.ofDefinition = description.opening.drafts
  rules : ∀ entry ∈ linter.entries,
    entry.2 ∈ description.opening.rules ∧ entry.2.id = entry.1.ruleId
  config : ∀ field,
    linter.config.value field = description.opening.config.settled description.settings field

/-- More settings are made. -/
def configure (description : Description) (settings : List Setting) : Description :=
  { description with settings := description.settings ++ settings }

theorem Fits.configure {description : Description} {linter : Linter}
    (fits : description.Fits linter) (settings : List Setting) :
    (description.configure settings).Fits (linter.configure settings) where
  catalog := fits.catalog
  rules := fits.rules
  config field := by
    rw [Linter.configure, Config.value_foldl_set, Config.settled, fits.config field,
      Description.configure, Config.settled_append]

end Description

theorem Severity.ofName?_eq_some_iff {text : String} {severity : Severity} :
    ofName? text = some severity ↔ text = severity.name := by
  constructor
  · intro found
    unfold ofName? at found
    split at found
    · obtain rfl := Option.some.inj found
      rfl
    · obtain rfl := Option.some.inj found
      rfl
    · cases found
  · rintro rfl
    exact ofName?_name severity

namespace Draft

theorem ofDefinition_injective : Function.Injective ofDefinition := by
  rintro ⟨ruleId, severity, failure, success⟩ ⟨ruleId', severity', failure', success'⟩ same
  simp only [ofDefinition, Draft.mk.injEq] at same
  obtain ⟨rfl, name, rfl, rfl⟩ := same
  have severities := congrArg Severity.ofName? name
  rw [Severity.ofName?_name, Severity.ofName?_name] at severities
  rw [Option.some.inj severities]

theorem definition_eq_ok_iff {draft : Draft} {definition : Definition} :
    draft.definition = .ok definition ↔ ofDefinition definition = draft := by
  constructor
  · intro read
    unfold Draft.definition at read
    split at read
    · rename_i severity found
      obtain rfl := Except.ok.inj read
      rw [Severity.ofName?_eq_some_iff] at found
      simp only [ofDefinition, ← found]
    · cases read
  · rintro rfl
    simp only [Draft.definition, ofDefinition, Severity.ofName?_name]

end Draft

theorem Catalog.ruleIds_ofDefinition (catalog : Catalog) :
    (catalog.map Draft.ofDefinition).map (·.ruleId) = catalog.map (·.ruleId) := by
  rw [List.map_map]
  rfl

theorem Catalog.ofDrafts_eq_ok_iff {drafts : List Draft} {catalog : Catalog} :
    ofDrafts drafts = .ok catalog ↔ catalog.map Draft.ofDefinition = drafts := by
  induction drafts generalizing catalog with
  | nil => cases catalog <;> simp [ofDrafts]
  | cons draft drafts ih =>
    constructor
    · intro read
      rw [ofDrafts] at read
      cases first : draft.definition with
      | error refusal =>
        rw [first] at read
        cases read
      | ok definition =>
        cases rest : ofDrafts drafts with
        | error refusal =>
          rw [first, rest] at read
          cases read
        | ok definitions =>
          rw [first, rest] at read
          cases read
          rw [List.map_cons, Draft.definition_eq_ok_iff.mp first, ih.mp rest]
    · intro same
      obtain ⟨definition, definitions, rfl, first, rest⟩ := List.map_eq_cons_iff.mp same
      rw [ofDrafts, Draft.definition_eq_ok_iff.mpr first, ih.mpr rest]
      rfl

/-- The catalog can be read if there are such severities. -/
theorem Catalog.exists_map_ofDefinition_iff {drafts : List Draft} :
    (∃ catalog : Catalog, catalog.map Draft.ofDefinition = drafts) ↔
      ∀ draft ∈ drafts, draft.severity = "error" ∨ draft.severity = "warning" := by
  constructor
  · rintro ⟨catalog, rfl⟩ draft member
    obtain ⟨⟨ruleId, severity, failure, success⟩, -, rfl⟩ := List.mem_map.mp member
    cases severity with
    | error => exact Or.inl rfl
    | warning => exact Or.inr rfl
  · intro severities
    induction drafts with
    | nil => exact ⟨[], rfl⟩
    | cons draft drafts ih =>
      obtain ⟨known, others⟩ := List.forall_mem_cons.mp severities
      obtain ⟨catalog, rfl⟩ := ih others
      obtain ⟨ruleId, severity, failure, success⟩ := draft
      rcases known with rfl | rfl
      · exact ⟨⟨ruleId, .error, failure, success⟩ :: catalog, rfl⟩
      · exact ⟨⟨ruleId, .warning, failure, success⟩ :: catalog, rfl⟩

namespace Linter

variable {drafts : List Draft} {registry : Registry} {config : Config} {linter : Linter}

theorem ofDrafts_eq_ok_iff :
    ofDrafts drafts registry config = .ok linter ↔
      ∃ catalog : Catalog, catalog.map Draft.ofDefinition = drafts ∧
        build catalog registry config = .ok linter := by
  simp only [← Catalog.ofDrafts_eq_ok_iff]
  rw [ofDrafts]
  cases Catalog.ofDrafts drafts with
  | error refusal => simp
  | ok catalog =>
    simp only [Except.ok.injEq, exists_eq_left']
    cases build catalog registry config <;> simp [Except.mapError]

theorem exists_build_iff {catalog : Catalog} :
    (∃ linter, build catalog registry config = .ok linter) ↔
      (catalog.map (·.ruleId)).Nodup ∧
      (∀ definition ∈ catalog, ∃ rule ∈ registry.rules, rule.id = definition.ruleId) ∧
      ∀ ruleId, config.selection.Names ruleId → ruleId ∈ catalog.map (·.ruleId) := by
  constructor
  · rintro ⟨linter, built⟩
    obtain ⟨resolved, -, known⟩ := build_eq_ok_iff.mp built
    have sound := sound_iff_exists_resolved.mpr ⟨_, resolved⟩
    refine ⟨sound.distinct, ?_, ?_⟩
    · exact fun definition member =>
        Registry.find?_ne_none_iff.mp (sound.registered definition member)
    · exact fun ruleId named => known ruleId (Selection.mem_named_iff.mpr named)
  · rintro ⟨distinct, registered, known⟩
    have sound : catalog.Sound registry :=
      ⟨distinct, fun definition member =>
        Registry.find?_ne_none_iff.mpr (registered definition member)⟩
    obtain ⟨entries, resolved⟩ := sound_iff_exists_resolved.mp sound
    exact ⟨⟨entries, config⟩, build_eq_ok_iff.mpr ⟨resolved, rfl, fun ruleId named =>
      known ruleId (Selection.mem_named_iff.mp named)⟩⟩

/-- A linter is opened if and only if nothing stands against it. -/
theorem exists_ofDrafts_iff :
    (∃ linter, ofDrafts drafts registry config = .ok linter) ↔
      Opening.Sound ⟨drafts, config, registry.rules⟩ := by
  simp only [ofDrafts_eq_ok_iff]
  constructor
  · rintro ⟨linter, catalog, rfl, built⟩
    obtain ⟨distinct, registered, known⟩ := exists_build_iff.mp ⟨linter, built⟩
    refine ⟨Catalog.exists_map_ofDefinition_iff.mp ⟨catalog, rfl⟩, ?_, ?_, ?_, ?_⟩
    · rwa [Catalog.ruleIds_ofDefinition]
    · intro draft member
      obtain ⟨definition, present, rfl⟩ := List.mem_map.mp member
      exact registered definition present
    · intro ruleId member
      rw [Catalog.ruleIds_ofDefinition]
      exact known ruleId (Or.inl member)
    · intro ruleIds listed ruleId member
      rw [Catalog.ruleIds_ofDefinition]
      exact known ruleId (Or.inr ⟨ruleIds, listed, member⟩)
  · rintro ⟨severities, distinct, registered, disabled, only⟩
    obtain ⟨catalog, rfl⟩ := Catalog.exists_map_ofDefinition_iff.mpr severities
    simp only [Catalog.ruleIds_ofDefinition] at distinct disabled only
    have buildable : ∃ linter, build catalog registry config = .ok linter := by
      refine exists_build_iff.mpr ⟨distinct, ?_, ?_⟩
      · intro definition member
        exact registered _ (List.mem_map_of_mem member)
      · rintro ruleId (member | ⟨ruleIds, listed, member⟩)
        · exact disabled ruleId member
        · exact only ruleIds listed ruleId member
    obtain ⟨linter, built⟩ := buildable
    exact ⟨linter, catalog, rfl, built⟩

theorem fits_of_ofDrafts (opened : ofDrafts drafts registry config = .ok linter) :
    Description.Fits ⟨⟨drafts, config, registry.rules⟩, []⟩ linter := by
  obtain ⟨catalog, rfl, built⟩ := ofDrafts_eq_ok_iff.mp opened
  obtain ⟨resolved, rfl, -⟩ := build_eq_ok_iff.mp built
  refine ⟨?_, ?_, fun _ => rfl⟩
  · rw [Linter.catalog, resolved.catalog_eq]
  · intro entry member
    exact Registry.mem_of_find? (resolved.registered entry member)

/-- A linter that is opened fits what it was opened with, and none is opened with
something that is not sound. -/
theorem ofDrafts_spec (drafts : List Draft) (registry : Registry) (config : Config) :
    (∃ linter, ofDrafts drafts registry config = .ok linter ∧
      Opening.Sound ⟨drafts, config, registry.rules⟩ ∧
      Description.Fits ⟨⟨drafts, config, registry.rules⟩, []⟩ linter) ∨
    ∃ refusal, ofDrafts drafts registry config = .error refusal ∧
      ¬ Opening.Sound ⟨drafts, config, registry.rules⟩ := by
  cases opened : ofDrafts drafts registry config with
  | ok linter =>
    exact Or.inl ⟨linter, rfl, exists_ofDrafts_iff.mp ⟨linter, opened⟩, fits_of_ofDrafts opened⟩
  | error refusal =>
    refine Or.inr ⟨refusal, rfl, fun sound => ?_⟩
    obtain ⟨linter, other⟩ := exists_ofDrafts_iff.mpr sound
    rw [opened] at other
    cases other

end Linter

namespace Description

/-- The description fits the linter, and no two of its rules share an id. -/
structure Pins (description : Description) (linter : Linter) : Prop where
  fits : description.Fits linter
  distinct : (description.opening.rules.map (·.id)).Nodup

variable {description : Description} {linter other : Linter}

theorem Pins.configure (pins : description.Pins linter) (settings : List Setting) :
    (description.configure settings).Pins (linter.configure settings) :=
  ⟨pins.fits.configure settings, pins.distinct⟩

/-- The rule of an entry is the one that the registry has for its id. -/
theorem Fits.entries_eq (distinct : (description.opening.rules.map (·.id)).Nodup)
    (fits : description.Fits linter) :
    linter.entries.map (fun entry => (entry.1, some entry.2)) =
      linter.catalog.map fun definition =>
        (definition, Registry.find? ⟨description.opening.rules⟩ definition.ruleId) := by
  rw [Linter.catalog, List.map_map]
  apply List.map_congr_left
  intro entry member
  have rule : Registry.find? ⟨description.opening.rules⟩ entry.1.ruleId = some entry.2 :=
    (Registry.find?_eq_some_iff distinct).mpr (fits.rules entry member)
  simp only [Function.comp_apply, rule]

/-- A description that pins a linter fits no other. -/
theorem Pins.eq_of_fits (pins : description.Pins linter) (fits : description.Fits other) :
    other = linter := by
  have config : other.config = linter.config := by
    apply Config.eq_of_value_eq
    intro field
    rw [fits.config, pins.fits.config]
  have catalog : other.catalog = linter.catalog :=
    Draft.ofDefinition_injective.list_map (fits.catalog.trans pins.fits.catalog.symm)
  have entries : other.entries = linter.entries := by
    have injective : Function.Injective fun entry : Definition × Rule =>
        (entry.1, some entry.2) := by
      rintro ⟨definition, rule⟩ ⟨definition', rule'⟩ same
      simpa using same
    apply injective.list_map
    rw [fits.entries_eq pins.distinct, pins.fits.entries_eq pins.distinct, catalog]
  obtain ⟨entries', config'⟩ := other
  obtain rfl : entries' = linter.entries := entries
  obtain rfl : config' = linter.config := config
  rfl

end Description
end SchemaLint
