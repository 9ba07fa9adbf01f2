import SchemaLint.Proofs.ScriptContext

/-! The two searches for a phrase against each other. The one that asks for a word
after the phrase finds less: it does not take a terminator or the end of the text
for a gap. In a statement of a script only the end makes a difference. -/
namespace SchemaLint
open Text

namespace Phrase

variable {words : List (List Char)} {text before after : List Char} {parts : List Part}
  {next : Char}

/-- The text ends with the words, and there are blanks between them. -/
def EndsWith (words : List (List Char)) (text : List Char) : Prop :=
  ∃ before parts last, text = before ++ parts.flatMap Part.chars ++ last ∧
    Spelled words (parts ++ [⟨last, []⟩]) ∧ ∀ part ∈ parts, part.Spaced

/-- A word after the phrase makes a longer phrase: blanks or the end come after it. -/
theorem LeadsTo.occursAt_append {run rest : List Char}
    (leads : LeadsTo words text before parts next (run ++ rest)) (maximal : MaximalRun run rest) :
    ∃ parts after, OccursAt (words ++ [next :: run]) text before parts after := by
  obtain ⟨gap, after, rfl, ends⟩ : ∃ gap after, rest = gap ++ after ∧
      (Gap gap ∨ gap = [] ∧ after = []) := by
    cases rest with
    | nil => exact ⟨[], [], rfl, Or.inr ⟨rfl, rfl⟩⟩
    | cons c rest => exact ⟨[c], rest, rfl, Or.inl (gap_singleton (Or.inl (maximal.stop c rfl)))⟩
  refine ⟨parts ++ [⟨next :: run, gap⟩], after, by simp [leads.text_eq, Part.chars], ?_, ?_, ?_⟩
  · exact List.rel_append leads.spelled (.cons (spells_refl _) .nil)
  · simpa using fun part member => (leads.spaced part member).gap
  · simpa using ends

theorem EndsWith.occursAt (ends : EndsWith words text) :
    ∃ before parts after, OccursAt words text before parts after := by
  obtain ⟨before, parts, last, rfl, spelled, spaced⟩ := ends
  refine ⟨before, parts ++ [⟨last, []⟩], [], by simp [Part.chars], spelled, ?_, by simp⟩
  simpa using fun part member => (spaced part member).gap

theorem Gap.spaced {part : Part} (gap : Gap part.gap) (unbroken : terminator ∉ part.gap) :
    part.Spaced := by
  rcases gap with blank | lone
  · exact blank
  · simp [lone] at unbroken

/-- Blanks in a text that does not end with one are followed by a further word. -/
theorem exists_solid_after (front : List Char) {gap after : List Char}
    (blanks : gap ≠ [] ∧ Blank gap)
    (last : ∀ c, (front ++ (gap ++ after)).getLast? = some c → isBlank c = false) :
    ∃ more next rest, Blank more ∧ after = more ++ next :: rest ∧ isBlank next = false := by
  obtain ⟨filled, blank⟩ := blanks
  obtain ⟨more, moreBlank, same⟩ := exists_trimStart after
  cases left : trimStart after with
  | nil =>
    have blankEnd : Blank (gap ++ after) := blank.append (trimStart_eq_nil_iff.mp left)
    obtain ⟨c, ending⟩ : ∃ c, (gap ++ after).getLast? = some c :=
      Option.isSome_iff_exists.mp (by simp [filled])
    have solid := last c (by simp [List.getLast?_append, ending])
    simp [blankEnd c (List.mem_of_getLast? ending)] at solid
  | cons next rest =>
    have solid := solidFirst_trimStart after next (by simp [left])
    exact ⟨more, next, rest, moreBlank, left ▸ same, solid⟩

/-- Where no terminator can be a gap, only blanks and the end of the text can. -/
theorem OccursAt.leadsTo_or_endsWith (filled : words ≠ []) (unbroken : terminator ∉ text)
    (last : ∀ c, text.getLast? = some c → isBlank c = false)
    (occurs : OccursAt words text before parts after) :
    (∃ parts next after, LeadsTo words text before parts next after) ∨ EndsWith words text := by
  obtain ⟨rfl, spelled, inner, final⟩ := occurs
  rcases List.eq_nil_or_concat parts with rfl | ⟨firsts, part, rfl⟩
  · cases spelled
    exact absurd rfl filled
  simp only [List.concat_eq_append, List.flatMap_append, List.flatMap_singleton, Part.chars,
    List.append_assoc, List.mem_append, not_or, List.dropLast_concat]
    at spelled inner final unbroken last ⊢
  obtain ⟨-, others, -, lastGap, -⟩ := unbroken
  have spaced : ∀ other ∈ firsts, other.Spaced := by
    intro other member
    refine (inner other member).spaced fun inside => others ?_
    exact List.mem_flatMap_of_mem member (List.mem_append_right _ inside)
  rcases final part List.getLast?_concat with valid | ⟨ends, rfl⟩
  · have blanks := valid.spaced lastGap
    obtain ⟨more, next, rest, moreBlank, rfl, solid⟩ :=
      exists_solid_after (before ++ (firsts.flatMap Part.chars ++ part.word)) blanks
        (by simpa using last)
    refine Or.inl ⟨firsts ++ [⟨part.word, part.gap ++ more⟩], next, rest, ?_, ?_, ?_, solid⟩
    · simp [Part.chars]
    · exact spelled.of_map_word_eq (by simp)
    · simpa [or_imp, forall_and] using ⟨spaced, by simp [blanks.1], blanks.2.append moreBlank⟩
  · refine Or.inr ⟨before, firsts, part.word, by simp [ends], ?_, spaced⟩
    exact spelled.of_map_word_eq (by simp)

end Phrase

namespace Statement
open Phrase

variable {statement : Statement} {phrase name : String}

theorem words_append_name (found : statement.nextWord? phrase = some name) :
    words (phrase ++ " " ++ name).toList = words phrase.toList ++ [name.toList] := by
  obtain ⟨filled, inside⟩ := nextWord?_eq_some found
  have blank : isBlank ' ' = true := rfl
  have spelled : (phrase ++ " " ++ name).toList = phrase.toList ++ ' ' :: name.toList := by simp
  rw [spelled, words_append_blank blank, words_of_solid filled fun c member => (inside c member).1]

theorem contains_append_of_nextWord? (found : statement.nextWord? phrase = some name) :
    statement.contains (phrase ++ " " ++ name) = true := by
  obtain ⟨before, parts, next, run, rest, leads, same, maximal⟩ :=
    exists_leadsFirst_of_nextWord? found
  rw [contains_eq_occurs, occurs_iff_exists_occursAt (whole_words _), words_append_name found, same]
  exact ⟨before, leads.toLeadsTo.occursAt_append maximal⟩

theorem contains_iff_of_trimmed (filled : words phrase.toList ≠ [])
    (unbroken : terminator ∉ statement.chars) (trimmed : Trimmed statement.chars) :
    statement.contains phrase = true ↔
      statement.nextWord? phrase ≠ none ∨ EndsWith (words phrase.toList) statement.chars := by
  constructor
  · intro found
    obtain ⟨before, parts, after, occurs⟩ :=
      (occurs_iff_exists_occursAt (whole_words phrase.toList)).mp found
    refine (occurs.leadsTo_or_endsWith filled unbroken trimmed.last).imp_left ?_
    rintro ⟨parts, next, after, leads⟩ missing
    rcases nextWord?_eq_none_iff.mp missing with empty | nowhere
    · exact filled empty
    · exact nowhere before parts next after leads
  · rintro (present | ends)
    · obtain ⟨name, found⟩ := Option.ne_none_iff_exists'.mp present
      exact contains_of_nextWord? found
    · exact (occurs_iff_exists_occursAt (whole_words phrase.toList)).mpr ends.occursAt

theorem contains_drop_self (filled : name.toList ≠ [])
    (solid : ∀ c ∈ name.toList, isBlank c = false) :
    (ofString ("drop table " ++ name)).contains ("drop table " ++ name) = true := by
  have plain : ∀ c ∈ "drop table ".toList, isLineBreak c = false := forall_mem_of_all rfl
  have oneLine : (ofString ("drop table " ++ name)).chars =
      "drop table ".toList ++ name.toList := by
    rw [chars_ofString, String.toList_append]
    refine onOneLine_eq_self fun c member => ?_
    rcases List.mem_append.mp member with before | inside
    · exact plain c before
    · exact not_isLineBreak_of_not_isBlank (solid c inside)
  have space : Gap [' '] := gap_singleton (Or.inl rfl)
  rw [contains_eq_occurs, occurs_iff_exists_occursAt (whole_words _), oneLine, String.toList_append,
    words_drop_table filled solid]
  refine ⟨[], [⟨"drop".toList, [' ']⟩, ⟨"table".toList, [' ']⟩, ⟨name.toList, []⟩], [],
    ?_, ?_, ?_, ?_⟩
  · simp [Part.chars]
  · exact .cons (spells_refl _) (.cons (spells_refl _) (.cons (spells_refl _) .nil))
  · simp [space]
  · simp

end Statement

namespace Check

/-- No name has every prefix. -/
theorem exists_hasPrefix_eq_false (name : String) : ∃ start, hasPrefix start name = false := by
  by_contra all
  have every : ∀ start : String, lowercase start.toList <+: lowercase name.toList := by
    simpa [hasPrefix] using all
  have first : lowercase "a".toList = ['a'] := by decide
  have second : lowercase "b".toList = ['b'] := by decide
  have begins := every "a"
  have differs := every "b"
  rw [first] at begins
  rw [second] at differs
  have same := List.prefix_of_prefix_length_le begins differs (by simp)
  simp at same

/-- The rule passes over a statement, whatever the prefix and the script, if and only
if the statement names no table that it creates. -/
theorem dropped?_eq_none_iff {statement : Statement} :
    (∀ start script, dropped? start script statement = none) ↔
      statement.nextWord? "create table" = none := by
  constructor
  · intro silent
    by_contra present
    obtain ⟨name, found⟩ := Option.ne_none_iff_exists'.mp present
    obtain ⟨filled, inside⟩ := Statement.nextWord?_eq_some found
    obtain ⟨start, unnamed⟩ := exists_hasPrefix_eq_false name
    have dropped := Statement.contains_drop_self filled fun c member => (inside c member).1
    have reported := dropped?_eq_some_iff.mpr
      ⟨name, Statement.contains_of_nextWord? found, found, dropped, unnamed, rfl⟩
    simp [silent] at reported
  · intro missing start script
    rw [Option.eq_none_iff_forall_ne_some]
    intro violation reported
    obtain ⟨name, -, found, -⟩ := dropped?_eq_some_iff.mp reported
    simp [missing] at found

end Check

namespace Statement
open Phrase

/-- The two searches agree, and with them the rule for tables that the script drops. -/
theorem searches_agree :
    (∀ (statement : Statement) (phrase name : String), statement.nextWord? phrase = some name →
      statement.contains phrase = true ∧ statement.contains (phrase ++ " " ++ name) = true) ∧
    ∀ script, ∀ text ∈ Script.statements script,
      (∀ phrase : String, words phrase.toList ≠ [] →
        ((ofString text).contains phrase = true ↔
          (ofString text).nextWord? phrase ≠ none ∨
            EndsWith (words phrase.toList) (ofString text).chars)) ∧
      ((∀ start other, Check.dropped? start other (ofString text) = none) ↔
        ∀ before parts next after,
          ¬ LeadsTo (words "create table".toList) (ofString text).chars
            before parts next after) := by
  refine ⟨?_, ?_⟩
  · intro statement phrase name found
    exact ⟨contains_of_nextWord? found, contains_append_of_nextWord? found⟩
  · intro script text member
    obtain ⟨segment, present, rfl⟩ := List.mem_map.mp member
    have alone := Script.standalone_of_mem_segments present
    have unbroken := Script.terminator_not_mem_chars alone.unbroken
    have trimmed : Trimmed (ofString (String.ofList segment)).chars := by
      simpa using alone.trimmed.onOneLine
    refine ⟨fun phrase filled => contains_iff_of_trimmed filled unbroken trimmed, ?_⟩
    rw [Check.dropped?_eq_none_iff, nextWord?_eq_none_iff, or_iff_right (by decide)]

theorem searches_agree_alter :
    "ALTER TABLE" ∈ Script.statements "x table y / ALTER TABLE" ∧
    words "alter  table".toList ≠ [] ∧
    EndsWith (words "alter  table".toList) (ofString "ALTER TABLE").chars ∧
    (ofString "x table y").nextWord? "table" = some "y" ∧
    (ofString "x table y").contains "table y" = true := by
  have split : "ALTER TABLE" ∈ Script.statements "x table y / ALTER TABLE" := by decide +kernel
  have filled : words "alter  table".toList ≠ [] := by decide +kernel
  have found : (ofString "x table y").nextWord? "table" = some "y" := by decide +kernel
  have contained : (ofString "ALTER TABLE").contains "alter  table" = true := by decide +kernel
  have missing : (ofString "ALTER TABLE").nextWord? "alter  table" = none := by decide +kernel
  obtain ⟨longer, inScript⟩ := searches_agree
  have ends := ((inScript _ _ split).1 _ filled).mp contained
  exact ⟨split, filled, ends.resolve_left (by simp [missing]), found, (longer _ _ _ found).2⟩

end Statement
end SchemaLint
