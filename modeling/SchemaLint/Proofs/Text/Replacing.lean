import Mathlib.Data.List.Infix
import SchemaLint.Proofs.Text.Reading

/-! Replacing the first occurrence of a word. Which occurrence that is follows from
where the word can stand at all: a word whose first letter does not come back in it
never overlaps itself. -/
namespace SchemaLint.Text

theorem readExact_eq_none_iff {word text : List Char} :
    readExact word text = none ↔ ¬ word <+: text := by
  rw [Option.eq_none_iff_forall_ne_some]
  constructor
  · rintro unread ⟨rest, rfl⟩
    exact unread rest (readExact_eq_some_iff.mpr rfl)
  · rintro absent rest read
    exact absent ⟨rest, (readExact_eq_some_iff.mp read).symm⟩

theorem replaceFirst_of_read {old text rest : List Char} (read : readExact old text = some rest)
    (new : List Char) : replaceFirst old new text = new ++ rest := by
  cases text <;> simp [replaceFirst, read]

theorem replaceFirst_cons {old text : List Char} {c : Char} (absent : ¬ old <+: c :: text)
    (new : List Char) : replaceFirst old new (c :: text) = c :: replaceFirst old new text := by
  rw [replaceFirst, readExact_eq_none_iff.mpr absent]

theorem replaceFirst_eq_self {old text : List Char} (absent : ¬ old <:+: text) (new : List Char) :
    replaceFirst old new text = text := by
  induction text with
  | nil =>
    have unread := readExact_eq_none_iff.mpr fun begins : old <+: [] => absent begins.isInfix
    simp [replaceFirst, unread]
  | cons c text ih =>
    rw [List.infix_cons_iff, not_or] at absent
    rw [replaceFirst_cons absent.1, ih absent.2]

theorem mem_of_mem_replaceFirst {old new text : List Char} {c : Char}
    (member : c ∈ replaceFirst old new text) : c ∈ new ∨ c ∈ text := by
  have filled : ∀ {text rest : List Char}, readExact old text = some rest → c ∈ new ++ rest →
      c ∈ new ∨ c ∈ text := by
    rintro text rest read member
    obtain rfl := readExact_eq_some_iff.mp read
    rcases List.mem_append.mp member with put | kept
    · exact Or.inl put
    · exact Or.inr (List.mem_append_right _ kept)
  induction text with
  | nil =>
    rw [replaceFirst] at member
    cases read : readExact old [] with
    | none => simp [read] at member
    | some rest => exact filled read (by simpa [read] using member)
  | cons d text ih =>
    rw [replaceFirst] at member
    split at member
    · rename_i rest read
      exact filled read member
    · rcases List.mem_cons.mp member with rfl | later
      · exact Or.inr List.mem_cons_self
      · exact (ih later).imp_right (List.mem_cons_of_mem _)

theorem replaceFirst_append {p : Char} {front : List Char} (absent : p ∉ front)
    (old new text : List Char) :
    replaceFirst (p :: old) new (front ++ text) = front ++ replaceFirst (p :: old) new text := by
  induction front with
  | nil => rfl
  | cons c front ih =>
    rw [List.mem_cons, not_or] at absent
    have elsewhere : ¬ p :: old <+: c :: (front ++ text) :=
      fun begins => absent.1 (List.cons_prefix_cons.mp begins).1
    simp only [List.cons_append, replaceFirst_cons elsewhere, ih absent.2]

/-- The occurrence that gives way is the first one. -/
theorem replaceFirst_eq_of_first {front old rest : List Char}
    (first : ∀ before after, front ++ (old ++ rest) = before ++ (old ++ after) →
      front.length ≤ before.length) (new : List Char) :
    replaceFirst old new (front ++ (old ++ rest)) = front ++ (new ++ rest) := by
  induction front with
  | nil => exact replaceFirst_of_read (readExact_eq_some_iff.mpr rfl) new
  | cons c front ih =>
    have absent : ¬ old <+: c :: (front ++ (old ++ rest)) := by
      rintro ⟨after, same⟩
      have earlier := first [] after same.symm
      simp at earlier
    have later : ∀ before after, front ++ (old ++ rest) = before ++ (old ++ after) →
        front.length ≤ before.length := by
      intro before after same
      simpa using first (c :: before) after (congrArg (c :: ·) same)
    simp only [List.cons_append, replaceFirst_cons absent, ih later]

/-- A word whose first letter does not come back in it does not overlap itself, so
after a text without it it stands only once. -/
theorem eq_of_append_word_eq {p : Char} {word front before after : List Char} (once : p ∉ word)
    (absent : ¬ p :: word <:+: front)
    (same : front ++ p :: word = before ++ (p :: word ++ after)) : before = front ∧ after = [] := by
  have placed : before = front := by
    rcases List.append_eq_append_iff.mp same with ⟨more, rfl, shape⟩ | ⟨more, rfl, shape⟩
    · have length := congrArg List.length shape
      simp only [List.length_append, List.length_cons] at length
      simp [List.eq_nil_of_length_eq_zero (show more.length = 0 by omega)]
    · rcases List.append_eq_append_iff.mp shape with ⟨rest, rfl, -⟩ | ⟨rest, whole, again⟩
      · exact absurd ⟨before, rest, by simp⟩ absent
      · -- the rest ends the word and begins it
        cases more with
        | nil => exact (List.append_nil before).symm
        | cons c more =>
          cases rest with
          | nil => exact absurd ⟨before, [], by simp [whole]⟩ absent
          | cons d rest =>
            obtain rfl := (List.cons.inj again).1
            exact absurd (by simp [(List.cons.inj whole).2]) once
  subst placed
  simpa using same

theorem infix_append_iff_of_not_mem {p : Char} {front : List Char} (absent : p ∉ front)
    (word text : List Char) : p :: word <:+: front ++ text ↔ p :: word <:+: text := by
  induction front with
  | nil => rfl
  | cons c front ih =>
    rw [List.mem_cons, not_or] at absent
    have elsewhere : ¬ p :: word <+: c :: (front ++ text) := by
      intro begins
      exact absent.1 (List.cons_prefix_cons.mp begins).1
    rw [List.cons_append, List.infix_cons_iff, or_iff_right elsewhere, ih absent.2]

theorem infix_concat_iff_of_ne {q c : Char} (differs : q ≠ c) (word text : List Char) :
    word ++ [q] <:+: text ++ [c] ↔ word ++ [q] <:+: text := by
  have elsewhere : ¬ word ++ [q] <:+ text ++ [c] := by
    rintro ⟨before, same⟩
    rw [← List.append_assoc] at same
    exact differs (List.cons.inj (List.append_inj' same rfl).2).1
  rw [List.infix_concat_iff, or_iff_right elsewhere]

end SchemaLint.Text
