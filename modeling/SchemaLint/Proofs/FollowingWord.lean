import SchemaLint.Proofs.PhraseOccurrence
import SchemaLint.Proofs.Text.Tokens

/-! The word after a phrase. Of all the places in a text from which the words of
the phrase, with blanks after each, lead to a further word, the first one counts,
and the word found there is taken whole. -/
namespace SchemaLint
open Text

namespace Phrase

/-- There are blanks after the word. -/
def Part.Spaced (part : Part) : Prop := part.gap ≠ [] ∧ Blank part.gap

/-- The words stand in the text after `before` with blanks after each, and `next`
is the character that comes then. -/
structure LeadsTo (words : List (List Char)) (text before : List Char) (parts : List Part)
    (next : Char) (after : List Char) : Prop where
  text_eq : text = before ++ parts.flatMap Part.chars ++ next :: after
  spelled : Spelled words parts
  spaced : ∀ part ∈ parts, part.Spaced
  solid : isBlank next = false

/-- No place before this one leads to a word. -/
structure LeadsFirst (words : List (List Char)) (text before : List Char) (parts : List Part)
    (next : Char) (after : List Char) : Prop
    extends LeadsTo words text before parts next after where
  first : ∀ earlier others other rest, LeadsTo words text earlier others other rest →
    before.length ≤ earlier.length

theorem Part.Spaced.gap {part : Part} (spaced : part.Spaced) : Gap part.gap := Or.inl spaced

variable {words : List (List Char)} {text before after : List Char} {parts : List Part}
  {next : Char}

/-- What leads to a word at the start of a later part of the text leads to it
there. -/
theorem LeadsTo.shift {rest : List Char} (leads : LeadsTo words rest [] parts next after)
    (before : List Char) : LeadsTo words (before ++ rest) before parts next after :=
  ⟨by simp [leads.text_eq], leads.spelled, leads.spaced, leads.solid⟩

theorem LeadsTo.exists_shift (leads : LeadsTo words text before parts next after) :
    ∃ rest, text = before ++ rest ∧ LeadsTo words rest [] parts next after :=
  ⟨parts.flatMap Part.chars ++ next :: after, by simp [leads.text_eq], by simp, leads.spelled,
    leads.spaced, leads.solid⟩

theorem LeadsTo.occursAt (leads : LeadsTo words text before parts next after) :
    OccursAt words text before parts (next :: after) where
  text_eq := leads.text_eq
  spelled := leads.spelled
  inner part member := (leads.spaced part (List.dropLast_subset parts member)).gap
  last part final := Or.inl (leads.spaced part (List.mem_of_getLast? final)).gap

/-- After the blanks comes a character that is none, of the next word of the phrase
or of the word it leads to. -/
theorem LeadsTo.solidFirst (whole : Whole words) (leads : LeadsTo words text [] parts next after) :
    SolidFirst text := by
  obtain ⟨rfl, spelled, -, solid⟩ := leads
  cases words with
  | nil =>
    cases spelled
    exact solidFirst_cons solid after
  | cons word words => simpa using whole.solidFirst spelled (next :: after)

theorem exists_leadsTo_of_wordAfter? {word : List Char}
    (found : wordAfter? words text = some word) :
    ∃ parts next run rest, LeadsTo words text [] parts next (run ++ rest) ∧ word = next :: run ∧
      MaximalRun run rest := by
  induction words generalizing text with
  | nil =>
    cases text with
    | nil => simp [wordAfter?] at found
    | cons next text =>
      cases solid : isBlank next with
      | true => simp [wordAfter?, solid] at found
      | false =>
        refine ⟨[], next, _, _, ⟨?_, .nil, by simp, solid⟩, ?_, maximalRun_takeWhile text⟩
        · simp [List.takeWhile_append_dropWhile]
        · simpa [wordAfter?, solid] using found.symm
  | cons word words ih =>
    obtain ⟨rest, read, later⟩ := Option.bind_eq_some_iff.mp found
    obtain ⟨after, spelled, blanks⟩ := Option.bind_eq_some_iff.mp read
    obtain ⟨front, spells, rfl⟩ := readCaseless_eq_some_iff.mp spelled
    obtain ⟨gap, filled, blank, -, rfl⟩ := readBlanks_eq_some_iff.mp blanks
    obtain ⟨parts, next, run, left, leads, same, maximal⟩ := ih later
    refine ⟨⟨front, gap⟩ :: parts, next, run, left, ⟨?_, .cons spells leads.spelled, ?_,
      leads.solid⟩, same, maximal⟩
    · simp [leads.text_eq, Part.chars]
    · exact List.forall_mem_cons.mpr ⟨⟨filled, blank⟩, leads.spaced⟩

theorem LeadsTo.wordAfter?_eq (whole : Whole words) {run rest : List Char}
    (leads : LeadsTo words text [] parts next (run ++ rest)) (maximal : MaximalRun run rest) :
    wordAfter? words text = some (next :: run) := by
  induction words generalizing text parts with
  | nil =>
    obtain ⟨rfl, spelled, -, solid⟩ := leads
    cases spelled
    simp [wordAfter?, solid, maximal.takeWhile_eq]
  | cons word words ih =>
    obtain ⟨rfl, spelled, spaced, solid⟩ := leads
    cases spelled with
    | @cons _ part _ parts spells spelled =>
      obtain ⟨⟨filled, blank⟩, spaced⟩ := List.forall_mem_cons.mp spaced
      have later : LeadsTo words (parts.flatMap Part.chars ++ next :: (run ++ rest)) [] parts next
          (run ++ rest) := ⟨by simp, spelled, spaced, solid⟩
      have blanks := readBlanks_run filled blank (later.solidFirst whole.tail)
      simp only [List.nil_append, List.flatMap_cons, Part.chars, List.append_assoc] at blanks ⊢
      simp [wordAfter?, readCaseless_spells spells, blanks, ih whole.tail later]

theorem wordAfter?_ne_none_iff (whole : Whole words) :
    wordAfter? words text ≠ none ↔ ∃ parts next after, LeadsTo words text [] parts next after := by
  rw [Option.ne_none_iff_exists']
  constructor
  · rintro ⟨word, found⟩
    obtain ⟨parts, next, run, rest, leads, -, -⟩ := exists_leadsTo_of_wordAfter? found
    exact ⟨parts, next, run ++ rest, leads⟩
  · rintro ⟨parts, next, after, leads⟩
    rw [← List.takeWhile_append_dropWhile (p := (!isBlank ·)) (l := after)] at leads
    exact ⟨_, leads.wordAfter?_eq whole (maximalRun_takeWhile after)⟩

end Phrase

namespace Statement
open Phrase

variable {statement : Statement} {phrase : String}

theorem nextWord?_of_no_words (empty : words phrase.toList = []) :
    statement.nextWord? phrase = none := by
  simp [nextWord?, empty]

theorem nextWord?_eq_searchFirst (filled : words phrase.toList ≠ []) :
    statement.nextWord? phrase =
      (searchFirst (wordAfter? (words phrase.toList)) statement.chars).map
        (String.ofList ∘ Prod.snd) := by
  obtain ⟨first, rest, same⟩ := List.exists_cons_of_ne_nil filled
  rw [nextWord?, same]
  rfl

theorem nextWord?_eq_none_iff :
    statement.nextWord? phrase = none ↔ words phrase.toList = [] ∨
      ∀ before parts next after,
        ¬ LeadsTo (words phrase.toList) statement.chars before parts next after := by
  by_cases empty : words phrase.toList = []
  · simp [nextWord?_of_no_words empty, empty]
  · have whole := whole_words phrase.toList
    rw [nextWord?_eq_searchFirst empty, Option.map_eq_none_iff, searchFirst_eq_none_iff]
    constructor
    · intro nowhere
      refine Or.inr fun before parts next after leads => ?_
      obtain ⟨rest, same, here⟩ := leads.exists_shift
      exact (wordAfter?_ne_none_iff whole).mpr ⟨parts, next, after, here⟩ (nowhere before rest same)
    · rintro (nothing | nowhere) before rest same
      · exact absurd nothing empty
      · by_contra found
        obtain ⟨parts, next, after, leads⟩ := (wordAfter?_ne_none_iff whole).mp found
        exact nowhere before parts next after (same ▸ leads.shift before)

/-- The word after the phrase stands at the first place that leads to one. -/
theorem exists_leadsFirst_of_nextWord? {name : String}
    (found : statement.nextWord? phrase = some name) :
    ∃ before parts next run rest,
      LeadsFirst (words phrase.toList) statement.chars before parts next (run ++ rest) ∧
      name.toList = next :: run ∧ MaximalRun run rest := by
  have whole := whole_words phrase.toList
  have filled : words phrase.toList ≠ [] := by
    intro empty
    simp [nextWord?_of_no_words empty] at found
  rw [nextWord?_eq_searchFirst filled] at found
  obtain ⟨⟨start, word⟩, searched, rfl⟩ := Option.map_eq_some_iff.mp found
  obtain ⟨before, left, same, rfl, read, unread⟩ := searchFirst_eq_some searched
  obtain ⟨parts, next, run, rest, leads, rfl, maximal⟩ := exists_leadsTo_of_wordAfter? read
  refine ⟨before, parts, next, run, rest, ⟨same ▸ leads.shift before, ?_⟩, by simp, maximal⟩
  intro earlier others first after other
  obtain ⟨text, split, here⟩ := other.exists_shift
  by_contra less
  exact (wordAfter?_ne_none_iff whole).mpr ⟨others, first, after, here⟩
    (unread earlier text split (by omega))

theorem nextWord?_eq_some {name : String} (found : statement.nextWord? phrase = some name) :
    name.toList ≠ [] ∧ ∀ c ∈ name.toList, isBlank c = false ∧ c ∈ statement.chars := by
  obtain ⟨before, parts, next, run, rest, leads, same, maximal⟩ :=
    exists_leadsFirst_of_nextWord? found
  have solid : ∀ c ∈ next :: run, isBlank c = false :=
    List.forall_mem_cons.mpr ⟨leads.solid, maximal.solid⟩
  have inside : next :: run ⊆ statement.chars := by
    rw [leads.text_eq, ← List.cons_append]
    exact fun c member => List.mem_append_right _ (List.mem_append_left _ member)
  rw [same]
  exact ⟨List.cons_ne_nil next run, fun c member => ⟨solid c member, inside member⟩⟩

theorem contains_of_nextWord? {name : String} (found : statement.nextWord? phrase = some name) :
    statement.contains phrase = true := by
  obtain ⟨before, parts, next, run, rest, leads, -⟩ := exists_leadsFirst_of_nextWord? found
  exact (occurs_iff_exists_occursAt (whole_words _)).mpr
    ⟨before, parts, _, leads.toLeadsTo.occursAt⟩

theorem nextWord?_eq_some_of_leadsFirst (filled : words phrase.toList ≠ []) {before : List Char}
    {parts : List Part} {next : Char} {run rest : List Char}
    (leads : LeadsFirst (words phrase.toList) statement.chars before parts next (run ++ rest))
    (maximal : MaximalRun run rest) :
    statement.nextWord? phrase = some (String.ofList (next :: run)) := by
  have whole := whole_words phrase.toList
  cases found : statement.nextWord? phrase with
  | none =>
    rcases nextWord?_eq_none_iff.mp found with empty | nowhere
    · exact absurd empty filled
    · exact absurd leads.toLeadsTo (nowhere before parts next (run ++ rest))
  | some name =>
    -- both places are the first one, and a place is read in one way only
    obtain ⟨other, others, first, run', rest', leads', same, maximal'⟩ :=
      exists_leadsFirst_of_nextWord? found
    have below := leads.first _ _ _ _ leads'.toLeadsTo
    have above := leads'.first _ _ _ _ leads.toLeadsTo
    obtain ⟨text, split, here⟩ := leads.exists_shift
    obtain ⟨text', split', here'⟩ := leads'.exists_shift
    obtain ⟨rfl, rfl⟩ := List.append_inj (split.symm.trans split') (by omega)
    have read := here.wordAfter?_eq whole maximal
    rw [here'.wordAfter?_eq whole maximal', ← same] at read
    rw [← Option.some.inj read, String.ofList_toList]

/-- The meaning of the word after a phrase: where there is none, and which one it
is. -/
theorem nextWord?_exact (statement : Statement) (phrase : String) :
    (statement.nextWord? phrase = none ↔ words phrase.toList = [] ∨
      ∀ before parts next after,
        ¬ LeadsTo (words phrase.toList) statement.chars before parts next after) ∧
    ∀ name, statement.nextWord? phrase = some name ↔ words phrase.toList ≠ [] ∧
      ∃ before parts next run rest,
        LeadsFirst (words phrase.toList) statement.chars before parts next (run ++ rest) ∧
        name.toList = next :: run ∧ MaximalRun run rest := by
  refine ⟨nextWord?_eq_none_iff, fun name => ⟨?_, ?_⟩⟩
  · intro found
    refine ⟨?_, exists_leadsFirst_of_nextWord? found⟩
    intro empty
    simp [nextWord?_of_no_words empty] at found
  · rintro ⟨filled, before, parts, next, run, rest, leads, same, maximal⟩
    rw [nextWord?_eq_some_of_leadsFirst filled leads maximal, ← same, String.ofList_toList]

end Statement
end SchemaLint
