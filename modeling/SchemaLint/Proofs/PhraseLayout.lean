import SchemaLint.Proofs.PhraseOccurrence
import SchemaLint.Proofs.Text.Respacing

/-! Keyword phrases in texts that differ in their layout. A phrase occurs in both
texts or in neither, and the word after it is the same but for single characters
that stand for the same letter. -/
namespace SchemaLint
open Text

namespace Phrase

variable {words : List (List Char)}

theorem isGap_iff_of_sameLetter {c d : Char} (agrees : sameLetter c d = true) :
    IsGap c ↔ IsGap d := by
  have flipped : sameLetter d c = true := sameLetter_iff.mpr (sameLetter_iff.mp agrees).symm
  constructor
  · intro gap
    by_contra solid
    cases flipped.symm.trans (not_sameLetter_of_gap solid gap)
  · intro gap
    by_contra solid
    cases agrees.symm.trans (not_sameLetter_of_gap solid gap)

/-- No word is read at a blank. -/
theorem Whole.readCaseless_blank {word : List Char} (whole : Whole (word :: words)) {b : Char}
    (blank : isBlank b = true) (text : List Char) : readCaseless word (b :: text) = none := by
  obtain ⟨filled, solid⟩ := whole word List.mem_cons_self
  obtain ⟨p, word, rfl⟩ := List.exists_cons_of_ne_nil filled
  refine if_neg fun agrees => ?_
  obtain rfl := eq_of_sameLetter_blank blank agrees
  cases blank.symm.trans (solid p List.mem_cons_self)

section Spelling

variable {text word other : List Char} {others : List (List Char)}

/-- The letters of two words are the same. -/
def SameLetters (word other : List Char) : Prop :=
  List.Forall₂ (fun c d => sameLetter c d = true) word other

theorem SameLetters.readCaseless_eq (alike : SameLetters word other) (text : List Char) :
    readCaseless word text = readCaseless other text := by
  induction alike generalizing text with
  | nil => rfl
  | @cons p q word other first _ ih =>
    cases text with
    | nil => rfl
    | cons c text =>
      have letters : sameLetter p c = sameLetter q c := by
        rw [sameLetter, sameLetter, sameLetter_iff.mp first]
      rw [readCaseless, readCaseless, readBy, readBy, letters]
      exact ite_congr rfl (fun _ => ih text) fun _ => rfl

theorem begins_spelling (alike : List.Forall₂ SameLetters words others) (text : List Char) :
    begins words text = begins others text := by
  induction alike generalizing text with
  | nil => rfl
  | cons first rest ih =>
    rw [begins_cons, begins_cons, first.readCaseless_eq]
    congr 1
    funext next
    cases next with
    | nil => cases rest <;> rfl
    | cons c next => rw [goesOn, goesOn, funext ih]

theorem occurs_spelling (alike : List.Forall₂ SameLetters words others) (text : List Char) :
    occurs words text = occurs others text := by
  rw [occurs, occurs, funext (begins_spelling alike)]

end Spelling

theorem goesOn_filled {text : List Char} (filled : text ≠ []) :
    goesOn words text = (readGap text).any (begins words) := by
  obtain ⟨c, text, rfl⟩ := List.exists_cons_of_ne_nil filled
  rfl

section Layout

variable {same : Char → Char → Prop} {kept : List Char → List Char → Prop}
  {before left right : List Char} (letters : ∀ {c d : Char}, same c d → sameLetter c d = true)
include letters

theorem readGap_respaced (respaced : Respaced same kept before left right) :
    Option.Rel (fun rest other => ∃ place, Respaced same kept place rest other)
      (readGap left) (readGap right) := by
  cases respaced with
  | done => exact .none
  | @char _ left right c d solid agrees rest =>
    have alike := isGap_iff_of_sameLetter (letters agrees)
    by_cases gap : IsGap c
    · have otherSolid := solid_of_sameLetter (letters agrees) solid
      have first : c = terminator := gap.resolve_left (by simp [solid])
      have second : d = terminator := (alike.mp gap).resolve_left (by simp [otherSolid])
      rw [first, second, readGap_terminator, readGap_terminator]
      exact .some ⟨_, rest⟩
    · rw [readGap_solid gap, readGap_solid (mt alike.mpr gap)]
      exact .none
  | gap blanks others solid _ rest =>
    rw [readGap_gap (Or.inl blanks) solid,
      readGap_gap (Or.inl others) (rest.solidFirst letters solid)]
    exact .some ⟨_, rest⟩

theorem goesOn_respaced
    (agrees : ∀ {before left right}, Respaced same kept before left right →
      begins words left = begins words right)
    (respaced : Respaced same kept before left right) : goesOn words left = goesOn words right := by
  have gaps := readGap_respaced letters respaced
  have any : (readGap left).any (begins words) = (readGap right).any (begins words) := by
    generalize readGap left = found, readGap right = otherFound at gaps ⊢
    cases gaps with
    | none => rfl
    | some layout =>
      obtain ⟨place, respaced⟩ := layout
      exact agrees respaced
  cases respaced with
  | done => rfl
  | char => exact any
  | gap blanks others => rwa [goesOn_filled (by simp [blanks.1]), goesOn_filled (by simp [others.1])]

theorem begins_respaced (whole : Whole words) (respaced : Respaced same kept before left right) :
    begins words left = begins words right := by
  induction words generalizing before left right with
  | nil => rfl
  | cons word words ih =>
    rw [begins_cons, begins_cons]
    rcases respaced.readCaseless letters (whole word List.mem_cons_self).2 with
      ⟨unread, otherUnread⟩ | ⟨spelled, other, rest, otherRest, spells, rfl, otherSpells, rfl, -, later⟩
    · rw [unread, otherUnread]
    · rw [readCaseless_spells spells, readCaseless_spells otherSpells, Option.any_some,
        Option.any_some]
      exact goesOn_respaced letters (ih whole.tail) later

theorem occurs_respaced (whole : Whole words) (respaced : Respaced same kept before left right) :
    occurs words left = occurs words right := by
  cases words with
  | nil => rw [occurs_nil, occurs_nil]
  | cons word words =>
    refine respaced.anySuffix ?_ (begins_respaced letters whole)
    intro b text blank
    rw [begins_cons, whole.readCaseless_blank blank, Option.any_none]

theorem wordAfter?_respaced (whole : Whole words) (respaced : Respaced same kept before left right) :
    Option.Rel (List.Forall₂ same) (wordAfter? words left) (wordAfter? words right) := by
  induction words generalizing before left right with
  | nil =>
    have solids : ∀ {c d : Char}, same c d → (!isBlank c) = (!isBlank d) := by
      intro c d agrees
      rw [isBlank_eq_of_sameLetter (letters agrees)]
    have noBlank : ∀ b, isBlank b = true → (!isBlank b) = false := by simp
    have run := (respaced.takeWhile noBlank solids).1
    rw [wordAfter?, wordAfter?]
    generalize left.takeWhile (!isBlank ·) = found, right.takeWhile (!isBlank ·) = other at run ⊢
    cases run with
    | nil => exact .none
    | cons first rest => exact .some (.cons first rest)
  | cons word words ih =>
    rw [wordAfter?, wordAfter?]
    rcases respaced.readCaseless letters (whole word List.mem_cons_self).2 with
      ⟨unread, otherUnread⟩ | ⟨spelled, other, rest, otherRest, spells, rfl, otherSpells, rfl, -, later⟩
    · rw [unread, otherUnread]
      exact .none
    · rw [readCaseless_spells spells, readCaseless_spells otherSpells, Option.bind_some,
        Option.bind_some]
      have blanks := later.readBlanks letters
      generalize readBlanks rest = found, readBlanks otherRest = otherFound at blanks ⊢
      cases blanks with
      | none => exact .none
      | some layout =>
        obtain ⟨place, respaced⟩ := layout
        exact ih whole.tail respaced

end Layout
end Phrase

namespace Statement

variable {same : Char → Char → Prop} {left right : Statement}
  (letters : ∀ {c d : Char}, same c d → sameLetter c d = true)
include letters

theorem contains_relaid (relaid : Relaid same left.chars right.chars) (phrase : String) :
    left.contains phrase = right.contains phrase :=
  Phrase.occurs_respaced letters (Phrase.whole_words _) relaid

theorem nextWord?_relaid (relaid : Relaid same left.chars right.chars) (phrase : String) :
    Option.Rel (fun name other => List.Forall₂ same name.toList other.toList)
      (left.nextWord? phrase) (right.nextWord? phrase) := by
  have whole := Phrase.whole_words phrase.toList
  unfold nextWord?
  generalize words phrase.toList = words at whole ⊢
  cases words with
  | nil => exact .none
  | cons first rest =>
    have deaf : ∀ b text, isBlank b = true → Phrase.wordAfter? (first :: rest) (b :: text) = none := by
      intro b text blank
      rw [Phrase.wordAfter?, whole.readCaseless_blank blank]
      rfl
    have found := relaid.searchFirst deaf (Phrase.wordAfter?_respaced letters whole)
    show Option.Rel _ ((searchFirst _ _).map (String.ofList ∘ Prod.snd))
      ((searchFirst _ _).map (String.ofList ∘ Prod.snd))
    rw [← Option.map_map, ← Option.map_map]
    generalize (searchFirst _ left.chars).map Prod.snd = word,
      (searchFirst _ right.chars).map Prod.snd = other at found ⊢
    cases found with
    | none => exact .none
    | some alike => exact .some (by simpa only [String.toList_ofList] using alike)

end Statement
end SchemaLint
