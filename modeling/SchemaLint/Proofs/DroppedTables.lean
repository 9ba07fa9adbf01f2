import SchemaLint.Proofs.RuleIsolation
import SchemaLint.Proofs.ScriptContext

/-! Which tables a script drops. A phrase that occurs in a script stands in one
of its statements, or else a terminator is one of the gaps between its words;
this gives the rule for temporary tables its meaning in terms of statements. -/
namespace SchemaLint

open Text Phrase

namespace Phrase

theorem Spells.terminator_not_mem {word text : List Char} (spells : Spells word text)
    (solid : ∀ c ∈ word, ¬ IsGap c) : terminator ∉ text := by
  induction spells with
  | nil => exact List.not_mem_nil
  | @cons p c word text same _ ih =>
    intro member
    rcases List.mem_cons.mp member with rfl | later
    · rw [not_sameLetter_of_gap (solid p List.mem_cons_self) (Or.inr rfl)] at same
      cases same
    · exact ih (fun q inside => solid q (List.mem_cons_of_mem _ inside)) later

theorem Spelled.terminator_not_mem {words : List (List Char)} {parts : List Part}
    (spelled : Spelled words parts) (solid : Solid words) :
    ∀ part ∈ parts, terminator ∉ part.word := by
  induction spelled with
  | nil => exact List.forall_mem_nil _
  | @cons word part words parts spells _ ih =>
    intro other member
    rcases List.mem_cons.mp member with rfl | later
    · exact Spells.terminator_not_mem spells (solid word List.mem_cons_self).2
    · exact ih (fun next inside => solid next (List.mem_cons_of_mem _ inside)) other later

/-- The text from the first word of a phrase to its last, all in one piece: the
phrase begins there whatever comes next, if only a gap comes first. -/
structure Core (words : List (List Char)) (core : List Char) : Prop where
  unbroken : terminator ∉ core
  begins : ∀ rest, GapFirst rest → begins words (core ++ rest) = true

theorem Core.ne_nil {words : List (List Char)} (solid : Solid words) (some_word : words ≠ [])
    {core : List Char} (valid : Core words core) : core ≠ [] := by
  rintro rfl
  have found := valid.begins [] gapFirst_nil
  rw [List.append_nil, begins_gapFirst solid gapFirst_nil, List.isEmpty_iff] at found
  exact some_word found

/-- Only a terminator between two words can break a phrase in two. -/
theorem OccursAt.exists_core {words : List (List Char)} (solid : Solid words)
    (some_word : words ≠ []) {text before : List Char} {parts : List Part} {after : List Char}
    (occurs : OccursAt words text before parts after)
    (within : ∀ part ∈ parts.dropLast, part.gap ≠ [terminator]) :
    ∃ core rest, Core words core ∧ GapFirst rest ∧ text = before ++ core ++ rest := by
  obtain ⟨rfl, spelled, inner, last⟩ := occurs
  rcases List.eq_nil_or_concat parts with rfl | ⟨firsts, part, rfl⟩
  · cases spelled
    exact absurd rfl some_word
  rw [List.concat_eq_append] at spelled inner last within ⊢
  rw [List.dropLast_concat] at inner within
  have plain := spelled.terminator_not_mem solid
  refine ⟨firsts.flatMap Part.chars ++ part.word, part.gap ++ after, ⟨?_, ?_⟩, ?_, ?_⟩
  · intro member
    rcases List.mem_append.mp member with earlier | here
    · obtain ⟨other, present, inside⟩ := List.mem_flatMap.mp earlier
      rcases List.mem_append.mp inside with word | gap
      · exact plain other (List.mem_append_left _ present) word
      · rcases inner other present with ⟨-, blank⟩ | lone
        · have found := blank terminator gap
          cases found
        · exact within other present lone
    · exact plain part (List.mem_append_right _ List.mem_cons_self) here
  · intro rest stop
    -- the last gap is as much of the rest as makes one
    obtain ⟨gap, left, rfl, ends⟩ : ∃ gap left, rest = gap ++ left ∧
        (Gap gap ∨ gap = [] ∧ left = []) := by
      cases rest with
      | nil => exact ⟨[], [], rfl, Or.inr ⟨rfl, rfl⟩⟩
      | cons c rest => exact ⟨[c], rest, rfl, Or.inl (gap_singleton (stop c rfl))⟩
    have again : OccursAt words (firsts.flatMap Part.chars ++ part.word ++ (gap ++ left)) []
        (firsts ++ [⟨part.word, gap⟩]) left := by
      refine ⟨by simp [Part.chars], spelled.of_map_word_eq (by simp), ?_, ?_⟩
      · rwa [List.dropLast_concat]
      · intro other final
        rw [List.getLast?_concat] at final
        cases final
        exact ends
    exact begins_of_occursAt solid.whole again
  · intro c head
    rcases last part List.getLast?_concat with valid | ⟨ends, rfl⟩
    · obtain ⟨d, gap, same⟩ := List.exists_cons_of_ne_nil valid.ne_nil
      rw [same, List.cons_append, List.head?_cons] at head
      obtain rfl := Option.some.inj head
      rcases valid with ⟨-, blank⟩ | lone
      · exact Or.inl (blank d (same ▸ List.mem_cons_self))
      · rw [same] at lone
        exact Or.inr (List.cons.inj lone).1
    · rw [ends] at head
      cases head
  · simp [Part.chars]

end Phrase

namespace Script

variable {words : List (List Char)} {core : List Char}

theorem occurs_trim (solid : Solid words) (text : List Char) :
    occurs words (trim text) = occurs words text := by
  obtain ⟨before, after, blankBefore, blankAfter, same⟩ := exists_trim text
  have padded : occurs words (before ++ trim text ++ after) = occurs words (trim text) := by
    rw [occurs_append_gaps solid (fun c member => Or.inl (blankAfter c member)),
      occurs_gaps_append solid (fun c member => Or.inl (blankBefore c member))]
  rw [← padded, ← same]

theorem exists_segment_iff_of_unbroken (solid : Solid words) (some_word : words ≠ [])
    {text : List Char} (unbroken : terminator ∉ text) :
    (∃ segment ∈ segments text, occurs words segment = true) ↔ occurs words text = true := by
  rw [segments_unbroken unbroken, ← occurs_trim solid text]
  split
  · rename_i empty
    simp [empty, occurs_in_nil solid, some_word]
  · simp

/-- What holds no terminator lies on one side of each. -/
theorem side_of_unbroken {left right before rest : List Char} (filled : core ≠ [])
    (unbroken : terminator ∉ core) (same : left ++ terminator :: right = before ++ (core ++ rest)) :
    (∃ x, left = before ++ core ++ x ∧ rest = x ++ terminator :: right) ∨
      ∃ x, right = x ++ core ++ rest := by
  rcases List.append_eq_append_iff.mp same with ⟨x, -, tail⟩ | ⟨x, split, tail⟩
  · cases x with
    | nil =>
      obtain ⟨c, core, rfl⟩ := List.exists_cons_of_ne_nil filled
      obtain rfl := (List.cons.inj tail).1
      exact absurd List.mem_cons_self unbroken
    | cons c x =>
      refine Or.inr ⟨x, ?_⟩
      rw [(List.cons.inj tail).2, List.append_assoc]
      rfl
  · rcases List.append_eq_append_iff.mp tail with ⟨y, inner, outer⟩ | ⟨y, inner, outer⟩
    · exact Or.inl ⟨y, by rw [split, inner, List.append_assoc], outer⟩
    · cases y with
      | nil =>
        rw [List.append_nil] at inner
        exact Or.inl ⟨[], by rw [split, inner, List.append_nil], outer.symm⟩
      | cons c y =>
        obtain rfl := (List.cons.inj outer).1
        exact absurd (by simp [inner]) unbroken

theorem exists_segment_of_core (solid : Solid words) (some_word : words ≠ [])
    (valid : Core words core) {text before rest : List Char} (stop : GapFirst rest)
    (same : text = before ++ (core ++ rest)) :
    ∃ segment ∈ segments text, occurs words segment = true := by
  have found : ∀ before {rest : List Char}, GapFirst rest →
      occurs words (before ++ (core ++ rest)) = true := fun before rest stop =>
    anySuffix_iff.mpr ⟨before, core ++ rest, rfl, valid.begins rest stop⟩
  induction text using segment_induction generalizing before rest with
  | single text unbroken =>
    exact (exists_segment_iff_of_unbroken solid some_word unbroken).mpr (same ▸ found before stop)
  | more left right unbroken ih =>
    rw [segments_append_terminator]
    rcases side_of_unbroken (valid.ne_nil solid some_word) valid.unbroken same with
      ⟨x, split, outer⟩ | ⟨x, split⟩
    · have first : GapFirst x := by
        intro c head
        apply stop c
        rw [outer, List.head?_append, head]
        rfl
      rw [List.append_assoc] at split
      obtain ⟨segment, member, here⟩ :=
        (exists_segment_iff_of_unbroken solid some_word unbroken).mpr (split ▸ found before first)
      exact ⟨segment, List.mem_append_left _ member, here⟩
    · obtain ⟨segment, member, here⟩ := ih stop (split.trans (List.append_assoc _ _ _))
      exact ⟨segment, List.mem_append_right _ member, here⟩

theorem occurs_of_mem_segments (solid : Solid words) (some_word : words ≠ [])
    {text segment : List Char} (member : segment ∈ segments text)
    (found : occurs words segment = true) : occurs words text = true := by
  induction text using segment_induction with
  | single text unbroken =>
    exact (exists_segment_iff_of_unbroken solid some_word unbroken).mp ⟨segment, member, found⟩
  | more left right unbroken ih =>
    rw [segments_append_terminator] at member
    rcases List.mem_append.mp member with first | later
    · have here :=
        (exists_segment_iff_of_unbroken solid some_word unbroken).mp ⟨segment, first, found⟩
      exact occurs_append_terminator here right
    · have here := occurs_append_right (ih later) (left ++ [terminator])
      rwa [List.append_assoc] at here

/-- The script drops the table: in one of its statements, or with a terminator
as a gap between the words. -/
def Drops (script name : String) : Prop :=
  (∃ statement ∈ statements script,
    (Statement.ofString statement).contains ("drop table " ++ name) = true) ∨
  ∃ before parts after,
    OccursAt (Text.words ("drop table " ++ name).toList) (Statement.ofString script).chars before
      parts after ∧
    ∃ part ∈ parts.dropLast, part.gap = [terminator]

/-- The statement makes a table that does not outlive the script. -/
def MakesTemporary (script statement name : String) : Prop :=
  (Statement.ofString statement).nextWord? "create temporary table" = some name ∨
  (Statement.ofString statement).nextWord? "create table" = some name ∧ Drops script name

theorem contains_drop_iff {script name : String}
    (solid : Solid (Text.words ("drop table " ++ name).toList))
    (some_word : Text.words ("drop table " ++ name).toList ≠ []) :
    (Statement.ofString script).contains ("drop table " ++ name) = true ↔ Drops script name := by
  have chars : ∀ statement, statement ∈ statements script ↔
      ∃ segment ∈ segments script.toList, String.ofList segment = statement := by
    intro statement
    rw [statements_eq, List.mem_map]
  constructor
  · intro found
    obtain ⟨before, parts, after, occurs⟩ := (occurs_iff_exists_occursAt solid.whole).mp found
    by_cases across : ∃ part ∈ parts.dropLast, part.gap = [terminator]
    · exact Or.inr ⟨before, parts, after, occurs, across⟩
    · have within : ∀ part ∈ parts.dropLast, part.gap ≠ [terminator] :=
        fun part member lone => across ⟨part, member, lone⟩
      obtain ⟨core, rest, valid, stop, same⟩ := occurs.exists_core solid some_word within
      rw [List.append_assoc] at same
      obtain ⟨segment, member, here⟩ := exists_segment_of_core solid some_word valid stop same
      rw [Statement.chars_ofString, segments_onOneLine] at member
      obtain ⟨original, present, rfl⟩ := List.mem_map.mp member
      refine Or.inl ⟨String.ofList original, (chars _).mpr ⟨original, present, rfl⟩, ?_⟩
      rwa [Statement.contains_eq_occurs, Statement.chars_ofString, String.toList_ofList]
  · rintro (⟨statement, member, here⟩ | ⟨before, parts, after, occurs, -⟩)
    · obtain ⟨original, present, rfl⟩ := (chars statement).mp member
      rw [Statement.contains_eq_occurs, Statement.chars_ofString, String.toList_ofList] at here
      have line : onOneLine original ∈ segments (onOneLine script.toList) := by
        rw [segments_onOneLine]
        exact List.mem_map_of_mem present
      exact occurs_of_mem_segments solid some_word line here
    · exact (occurs_iff_exists_occursAt solid.whole).mpr ⟨before, parts, after, occurs⟩

end Script

namespace Check

theorem temporary?_eq_some_iff {start : String} {statement : Statement} {violation : Violation} :
    temporary? start statement = some violation ↔
      ∃ table, statement.nextWord? "create temporary table" = some table ∧
        hasPrefix start table = false ∧ violation = .temporaryTable table := by
  constructor
  · intro found
    unfold temporary? at found
    split at found
    · split at found
      · rename_i table name
        split at found
        · cases found
        · rename_i unnamed
          exact ⟨table, name, by simpa using unnamed, (Option.some.inj found).symm⟩
      · cases found
    · cases found
  · rintro ⟨table, name, unnamed, rfl⟩
    rw [temporary?, if_pos (Statement.contains_of_nextWord? name), name]
    simp [unnamed]

theorem tempTable?_isSome_iff {start : String} {script statement : Statement} :
    (tempTable? start (some script) statement).isSome = true ↔
      ∃ name, hasPrefix start name = false ∧
        (statement.nextWord? "create temporary table" = some name ∨
          statement.nextWord? "create table" = some name ∧
            script.contains ("drop table " ++ name) = true) := by
  rw [tempTable?, Option.isSome_or, Bool.or_eq_true, Option.bind_some, Option.isSome_iff_exists,
    Option.isSome_iff_exists]
  simp only [temporary?_eq_some_iff, dropped?_eq_some_iff]
  constructor
  · rintro (⟨-, name, found, unnamed, -⟩ | ⟨-, name, -, found, drops, unnamed, -⟩)
    · exact ⟨name, unnamed, Or.inl found⟩
    · exact ⟨name, unnamed, Or.inr ⟨found, drops⟩⟩
  · rintro ⟨name, unnamed, found | ⟨found, drops⟩⟩
    · exact Or.inl ⟨_, name, found, unnamed, rfl⟩
    · exact Or.inr ⟨_, name, Statement.contains_of_nextWord? found, found, drops, unnamed, rfl⟩

end Check

namespace Linter

variable {catalog : Catalog} {registry : Registry} {config : Config} {linter : Linter}

theorem countP_tempTable (built : build catalog registry config = .ok linter)
    (active : "temp-table-naming" ∈ linter.active.map (·.ruleId)) (script? : Option Statement)
    (statement : Statement) :
    (linter.evaluate script? statement).outcomes.countP (·.ruleId == "temp-table-naming") =
      (Check.tempTable? config.policy.tempPrefix script? statement).toList.length := by
  obtain ⟨definition, listed, named⟩ := List.mem_map.mp active
  obtain ⟨⟨definition, rule⟩, present, rfl⟩ := List.mem_map.mp listed
  have identified := Registry.id_of_find? (registered_of_build built present)
  dsimp only at named identified
  obtain rfl : rule = .tempTableName := by
    cases rule with
    | tempTableName => rfl
    | tableTablespace | indexTablespace | noDoubleQuotes | constraintName _ =>
      simp [Rule.id, named] at identified
  have own : ((linter.evaluate script? statement).outcomes.filter fun outcome =>
      outcome.ruleId == definition.ruleId) = _ := filter_outcomes_eq_entryOutcomes built present
  rw [List.countP_eq_length_filter, ← named, own, entryOutcomes_rule, List.length_map]
  rfl

/-- The meaning of the rule for temporary tables, statement by statement. -/
theorem lint_tempTable_iff (built : build catalog registry config = .ok linter)
    (active : "temp-table-naming" ∈ linter.active.map (·.ruleId)) (script : String) :
    List.Forall₂ (fun statement result =>
        result.statement = .ofString statement ∧
        result.outcomes.countP (·.ruleId == "temp-table-naming") ≤ 1 ∧
        (result.outcomes.countP (·.ruleId == "temp-table-naming") = 1 ↔
          ∃ name, ¬ lowercase config.policy.tempPrefix.toList <+: lowercase name.toList ∧
            Script.MakesTemporary script statement name))
      (Script.statements script) (linter.lint script).results := by
  rw [results_lint, List.forall₂_map_right_iff, List.forall₂_same]
  intro statement member
  refine ⟨rfl, ?_, ?_⟩
  · rw [countP_tempTable built active]
    cases Check.tempTable? config.policy.tempPrefix _ _ <;> simp
  · have single : ∀ found : Option Violation, found.toList.length = 1 ↔ found.isSome = true := by
      intro found
      cases found <;> simp
    rw [countP_tempTable built active, single, Check.tempTable?_isSome_iff]
    obtain ⟨segment, present, rfl⟩ := List.mem_map.mp member
    have alone := Script.standalone_of_mem_segments present
    apply exists_congr
    intro name
    have unnamed : Check.hasPrefix config.policy.tempPrefix name = false ↔
        ¬ lowercase config.policy.tempPrefix.toList <+: lowercase name.toList := by
      rw [Check.hasPrefix, ← List.isPrefixOf_iff_prefix, Bool.not_eq_true]
    rw [unnamed, Script.MakesTemporary]
    apply and_congr_right
    intro _
    apply or_congr_right
    apply and_congr_right
    intro found
    have solid := solid_drop_table (Script.terminator_not_mem_chars alone.unbroken) found
    refine Script.contains_drop_iff solid ?_
    obtain ⟨filled, inside⟩ := Statement.nextWord?_eq_some found
    rw [String.toList_append, words_drop_table filled fun c present => (inside c present).1]
    exact List.cons_ne_nil _ _

theorem lint_tempTable_iff_across :
    "temp-table-naming" ∈ standard.active.map (·.ruleId) ∧
    ∃ name, ¬ lowercase "temp_".toList <+: lowercase name.toList ∧
      Script.MakesTemporary "create table x / drop/table x" "create table x" name := by
  have active : "temp-table-naming" ∈ standard.active.map (·.ruleId) := by decide
  have meaning := lint_tempTable_iff build_standard active "create table x / drop/table x"
  have split : Script.statements "create table x / drop/table x" =
      ["create table x", "drop", "table x"] := by decide +kernel
  have flagged : (standard.evaluate (some (.ofString "create table x / drop/table x"))
      (.ofString "create table x")).outcomes.countP (·.ruleId == "temp-table-naming") = 1 := by
    decide +kernel
  rw [results_lint, split] at meaning
  obtain ⟨-, -, first⟩ := (List.forall₂_cons.mp meaning).1
  exact ⟨active, first.mp flagged⟩

end Linter
end SchemaLint
