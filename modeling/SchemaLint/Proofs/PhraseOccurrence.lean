import SchemaLint.Proofs.PhraseSearch
import SchemaLint.Proofs.Text.Cutting
import SchemaLint.Proofs.Text.Reading
import SchemaLint.Statement

/-! What it means for a phrase to occur in a text: the words stand there one
after the other, with a gap after each. The end of the text can take the place of
the last gap, which is the same as a blank put after the text. -/
namespace SchemaLint
open Text

namespace Phrase

/-- Blanks, or a single terminator. -/
def Gap (text : List Char) : Prop := text ≠ [] ∧ Blank text ∨ text = [terminator]

/-- A word as a text spells it, and what stands before the next one. -/
structure Part where
  word : List Char
  gap : List Char

def Part.chars (part : Part) : List Char := part.word ++ part.gap

/-- The parts spell the words, each its own. -/
def Spelled (words : List (List Char)) (parts : List Part) : Prop :=
  List.Forall₂ (fun word part => Spells word part.word) words parts

/-- The words stand in the text between `before` and `after`. -/
structure OccursAt (words : List (List Char)) (text before : List Char) (parts : List Part)
    (after : List Char) : Prop where
  text_eq : text = before ++ parts.flatMap Part.chars ++ after
  spelled : Spelled words parts
  inner : ∀ part ∈ parts.dropLast, Gap part.gap
  last : ∀ part, parts.getLast? = some part → Gap part.gap ∨ part.gap = [] ∧ after = []

/-- The phrase as it is found with a blank put after the text: there is a gap
after each word, and for a phrase without words a gap is all there is. -/
def OccursPadded (words : List (List Char)) (text : List Char) : Prop :=
  ∃ before parts after, text ++ [' '] = before ++ parts.flatMap Part.chars ++ after ∧
    Spelled (if words = [] then [[]] else words) parts ∧ ∀ part ∈ parts, Gap part.gap

theorem Gap.ne_nil {text : List Char} (gap : Gap text) : text ≠ [] := by
  rcases gap with ⟨filled, -⟩ | rfl
  · exact filled
  · exact List.cons_ne_nil _ _

theorem gap_singleton {c : Char} (gap : IsGap c) : Gap [c] := by
  rcases gap with blank | rfl
  · exact Or.inl ⟨List.cons_ne_nil _ _, blank_singleton blank⟩
  · exact Or.inr rfl

theorem exists_gap_of_readGap {text rest : List Char} (read : readGap text = some rest) :
    ∃ gap, Gap gap ∧ text = gap ++ rest := by
  cases text with
  | nil => cases read
  | cons c text =>
    rw [readGap] at read
    split at read
    · rename_i same
      cases read
      exact ⟨[c], Or.inr (by rw [same]), rfl⟩
    · obtain ⟨gap, filled, blank, -, same⟩ := readBlanks_eq_some_iff.mp read
      exact ⟨gap, Or.inl ⟨filled, blank⟩, same⟩

theorem readGap_gap {gap rest : List Char} (valid : Gap gap) (solid : SolidFirst rest) :
    readGap (gap ++ rest) = some rest := by
  rcases valid with ⟨filled, blank⟩ | rfl
  · obtain ⟨c, gap, rfl⟩ := List.exists_cons_of_ne_nil filled
    have others : Blank gap := fun d member => blank d (List.mem_cons_of_mem _ member)
    rw [List.cons_append, readGap_blank (blank c List.mem_cons_self), trimStart_run others solid]
  · exact readGap_terminator rest

theorem exists_readGap {gap : List Char} (valid : Gap gap) (rest : List Char) :
    ∃ left, readGap (gap ++ rest) = some left := by
  rcases valid with ⟨filled, blank⟩ | rfl
  · obtain ⟨c, gap, rfl⟩ := List.exists_cons_of_ne_nil filled
    exact ⟨_, readGap_blank (blank c List.mem_cons_self) _⟩
  · exact ⟨rest, readGap_terminator rest⟩

/-- Words that are not empty and hold no blank. -/
def Whole (words : List (List Char)) : Prop :=
  ∀ word ∈ words, word ≠ [] ∧ ∀ c ∈ word, isBlank c = false

theorem whole_words (text : List Char) : Whole (words text) := by
  intro word member
  obtain ⟨piece, filled⟩ := List.mem_filter.mp member
  exact ⟨by simpa using filled, fun c inside => (of_mem_piece piece inside).2⟩

theorem Whole.tail {word : List Char} {words : List (List Char)} (whole : Whole (word :: words)) :
    Whole words :=
  fun next member => whole next (List.mem_cons_of_mem _ member)

theorem Solid.whole {words : List (List Char)} (solid : Solid words) : Whole words := by
  intro word member
  obtain ⟨filled, plain⟩ := solid word member
  refine ⟨filled, ?_⟩
  intro c inside
  by_contra blank
  exact plain c inside (Or.inl (by simpa using blank))

theorem Whole.solidFirst {word : List Char} {words : List (List Char)}
    (whole : Whole (word :: words)) {parts : List Part} (spelled : Spelled (word :: words) parts)
    (after : List Char) : SolidFirst (parts.flatMap Part.chars ++ after) := by
  obtain ⟨filled, solid⟩ := whole word List.mem_cons_self
  obtain ⟨p, letters, rfl⟩ := List.exists_cons_of_ne_nil filled
  cases spelled with
  | cons spells _ =>
    rw [List.flatMap_cons, Part.chars, List.append_assoc, List.append_assoc]
    exact spells.solidFirst (solid p List.mem_cons_self) _

theorem exists_occursAt_of_begins {words : List (List Char)} {text : List Char}
    (found : begins words text = true) : ∃ parts after, OccursAt words text [] parts after := by
  induction words generalizing text with
  | nil =>
    refine ⟨[], text, rfl, .nil, List.forall_mem_nil _, ?_⟩
    intro part last
    cases last
  | cons word words ih =>
    rw [begins_cons, Option.any_eq_true] at found
    obtain ⟨rest, read, goes⟩ := found
    obtain ⟨spelled, spells, rfl⟩ := readCaseless_eq_some_iff.mp read
    cases rest with
    | nil =>
      obtain rfl : words = [] := List.isEmpty_iff.mp goes
      refine ⟨[⟨spelled, []⟩], [], by simp [Part.chars], .cons spells .nil,
        List.forall_mem_nil _, ?_⟩
      intro part last
      cases last
      exact Or.inr ⟨rfl, rfl⟩
    | cons c rest =>
      rw [goesOn, Option.any_eq_true] at goes
      obtain ⟨left, gapRead, later⟩ := goes
      obtain ⟨gap, valid, same⟩ := exists_gap_of_readGap gapRead
      obtain ⟨parts, after, occurs⟩ := ih later
      refine ⟨⟨spelled, gap⟩ :: parts, after, ?_, .cons spells occurs.spelled, ?_, ?_⟩
      · rw [same, occurs.text_eq]
        simp [Part.chars]
      · intro part member
        cases parts with
        | nil => cases member
        | cons next parts =>
          rcases List.mem_cons.mp member with rfl | inside
          · exact valid
          · exact occurs.inner part inside
      · intro part last
        cases parts with
        | nil =>
          cases last
          exact Or.inl valid
        | cons next parts => exact occurs.last part last

theorem begins_of_occursAt {words : List (List Char)} (whole : Whole words) {text : List Char}
    {parts : List Part} {after : List Char} (occurs : OccursAt words text [] parts after) :
    begins words text = true := by
  induction words generalizing text parts with
  | nil => rfl
  | cons word words ih =>
    obtain ⟨rfl, spelled, inner, last⟩ := occurs
    cases spelled with
    | @cons _ part _ parts spells spelled =>
      have text_eq : [] ++ (part :: parts).flatMap Part.chars ++ after =
          part.word ++ (part.gap ++ (parts.flatMap Part.chars ++ after)) := by
        simp [Part.chars]
      rw [text_eq, begins_cons, readCaseless_spells spells, Option.any_some]
      cases words with
      | nil =>
        cases spelled
        rcases last part rfl with valid | ⟨ends, nothing⟩
        · obtain ⟨left, read⟩ := exists_readGap valid after
          obtain ⟨c, gap, same⟩ := List.exists_cons_of_ne_nil valid.ne_nil
          rw [same] at read ⊢
          rw [List.flatMap_nil, List.nil_append, List.cons_append, goesOn, ← List.cons_append, read]
          rfl
        · rw [ends, nothing]
          rfl
      | cons next words =>
        have more : parts ≠ [] := by
          rintro rfl
          cases spelled
        obtain ⟨second, rest, rfl⟩ := List.exists_cons_of_ne_nil more
        have valid : Gap part.gap := inner part List.mem_cons_self
        have read := readGap_gap valid (whole.tail.solidFirst spelled after)
        obtain ⟨c, gap, same⟩ := List.exists_cons_of_ne_nil valid.ne_nil
        rw [same] at read ⊢
        rw [List.cons_append, goesOn, ← List.cons_append, read, Option.any_some]
        refine ih whole.tail ⟨rfl, spelled, ?_, last⟩
        exact fun other member => inner other (List.mem_cons_of_mem _ member)

theorem occurs_iff_exists_occursAt {words : List (List Char)} (whole : Whole words)
    {text : List Char} :
    occurs words text = true ↔ ∃ before parts after, OccursAt words text before parts after := by
  rw [occurs, anySuffix_iff]
  constructor
  · rintro ⟨before, rest, rfl, found⟩
    obtain ⟨parts, after, at_start⟩ := exists_occursAt_of_begins found
    refine ⟨before, parts, after, ?_, at_start.spelled, at_start.inner, at_start.last⟩
    rw [at_start.text_eq, List.nil_append, List.append_assoc]
  · rintro ⟨before, parts, after, here⟩
    have at_start : OccursAt words (parts.flatMap Part.chars ++ after) [] parts after :=
      ⟨rfl, here.spelled, here.inner, here.last⟩
    refine ⟨before, _, ?_, begins_of_occursAt whole at_start⟩
    rw [here.text_eq, List.append_assoc]

/-- The gaps have no part in the spelling. -/
theorem Spelled.of_map_word_eq {words : List (List Char)} {parts other : List Part}
    (spelled : Spelled words parts) (same : other.map Part.word = parts.map Part.word) :
    Spelled words other := by
  have mapped := List.forall₂_map_right_iff.mpr spelled
  rw [← same] at mapped
  exact List.forall₂_map_right_iff.mp mapped

theorem OccursAt.padded {words : List (List Char)} {text before : List Char} {parts : List Part}
    {after : List Char} (occurs : OccursAt words text before parts after) :
    OccursPadded words text := by
  obtain ⟨rfl, spelled, inner, last⟩ := occurs
  rcases List.eq_nil_or_concat parts with rfl | ⟨firsts, part, rfl⟩
  · cases spelled
    refine ⟨before ++ after, [⟨[], [' ']⟩], [], ?_, ?_, ?_⟩
    · simp [Part.chars]
    · exact .cons .nil .nil
    · intro part member
      obtain rfl := List.mem_singleton.mp member
      exact gap_singleton (Or.inl rfl)
  · rw [List.concat_eq_append] at spelled inner last ⊢
    rw [List.dropLast_concat] at inner
    have some_word : words ≠ [] := by
      rintro rfl
      have length := List.Forall₂.length_eq spelled
      simp at length
    rcases last part List.getLast?_concat with valid | ⟨ends, rfl⟩
    · refine ⟨before, firsts ++ [part], after ++ [' '], by simp, ?_, ?_⟩
      · rwa [if_neg some_word]
      · intro other member
        rcases List.mem_append.mp member with first | here
        · exact inner other first
        · rwa [List.mem_singleton.mp here]
    · -- the blank after the text is the gap that the last word lacked
      refine ⟨before, firsts ++ [⟨part.word, [' ']⟩], [], by simp [Part.chars, ends], ?_, ?_⟩
      · rw [if_neg some_word]
        exact spelled.of_map_word_eq (by simp)
      · intro other member
        rcases List.mem_append.mp member with first | here
        · exact inner other first
        · rw [List.mem_singleton.mp here]
          exact gap_singleton (Or.inl rfl)

theorem OccursPadded.exists_occursAt {words : List (List Char)} {text : List Char}
    (padded : OccursPadded words text) :
    ∃ before parts after, OccursAt words text before parts after := by
  by_cases none_left : words = []
  · subst none_left
    refine ⟨[], [], text, rfl, .nil, List.forall_mem_nil _, ?_⟩
    intro part last
    cases last
  · obtain ⟨before, parts, after, same, spelled, gaps⟩ := padded
    rw [if_neg none_left] at spelled
    rcases List.eq_nil_or_concat parts with rfl | ⟨firsts, part, rfl⟩
    · cases spelled
      exact absurd rfl none_left
    rw [List.concat_eq_append] at same spelled gaps
    have inner : ∀ other ∈ firsts, Gap other.gap :=
      fun other member => gaps other (List.mem_append_left _ member)
    have valid : Gap part.gap := gaps part (List.mem_append_right _ List.mem_cons_self)
    rcases List.eq_nil_or_concat after with rfl | ⟨left, c, rfl⟩
    · -- the last gap holds the blank after the text
      obtain ⟨short, c, shape⟩ := List.eq_nil_or_concat part.gap |>.resolve_left valid.ne_nil
      rw [List.concat_eq_append] at shape
      have cut : text ++ [' '] =
          (before ++ firsts.flatMap Part.chars ++ part.word ++ short) ++ [c] := by
        rw [same]
        simp [Part.chars, shape]
      obtain ⟨rfl, space⟩ := List.append_inj' cut rfl
      obtain rfl := (List.cons.inj space).1
      refine ⟨before, firsts ++ [⟨part.word, short⟩], [], by simp [Part.chars], ?_, ?_, ?_⟩
      · exact spelled.of_map_word_eq (by simp)
      · rwa [List.dropLast_concat]
      · intro other last
        rw [List.getLast?_concat] at last
        cases last
        by_cases empty : short = []
        · exact Or.inr ⟨empty, rfl⟩
        · rcases valid with ⟨-, blank⟩ | lone
          · have rest : Blank short := fun d member => blank d (by simp [shape, member])
            exact Or.inl (Or.inl ⟨empty, rest⟩)
          · rw [shape] at lone
            have length := congrArg List.length lone
            simp [empty] at length
    · rw [List.concat_eq_append, ← List.append_assoc] at same
      obtain ⟨rfl, -⟩ := List.append_inj' same rfl
      refine ⟨before, firsts ++ [part], left, rfl, spelled, ?_, ?_⟩
      · rwa [List.dropLast_concat]
      · intro other last
        rw [List.getLast?_concat] at last
        cases last
        exact Or.inl valid

end Phrase

namespace Statement
open Phrase

/-- The meaning of a search for a phrase, in two forms. -/
theorem contains_iff_occursAt_and_padded (statement : Statement) (phrase : String) :
    (statement.contains phrase = true ↔ words phrase.toList = [] ∨
      ∃ before parts after,
        OccursAt (words phrase.toList) statement.chars before parts after) ∧
    (statement.contains phrase = true ↔ OccursPadded (words phrase.toList) statement.chars) := by
  have meaning : statement.contains phrase = true ↔
      ∃ before parts after, OccursAt (words phrase.toList) statement.chars before parts after :=
    occurs_iff_exists_occursAt (whole_words phrase.toList)
  refine ⟨?_, ?_⟩
  · rw [meaning]
    constructor
    · exact Or.inr
    · rintro (empty | found)
      · rw [← meaning, contains, empty]
        exact occurs_nil statement.chars
      · exact found
  · rw [meaning]
    constructor
    · rintro ⟨before, parts, after, found⟩
      exact found.padded
    · exact OccursPadded.exists_occursAt

end Statement
end SchemaLint
