import SchemaLint.Proofs.Text.Cutting
import SchemaLint.Proofs.Text.Reading

/-! The words of a text where they stand in it. A word is a run of characters
without blanks that cannot be made longer, and each end of a word begins a later
part of the text. -/
namespace SchemaLint.Text

/-- The run holds no blank, and the rest of the text does not make it longer. -/
structure MaximalRun (run rest : List Char) : Prop where
  solid : ∀ c ∈ run, isBlank c = false
  stop : ∀ c, rest.head? = some c → isBlank c = true

theorem maximalRun_takeWhile (text : List Char) :
    MaximalRun (text.takeWhile (!isBlank ·)) (text.dropWhile (!isBlank ·)) := by
  refine ⟨fun c member => by simpa using List.mem_takeWhile_imp member, ?_⟩
  intro c head
  have stops := List.head?_dropWhile_not (!isBlank ·) text
  simpa [head] using stops

theorem MaximalRun.takeWhile_eq {run rest : List Char} (maximal : MaximalRun run rest) :
    (run ++ rest).takeWhile (!isBlank ·) = run :=
  takeWhile_run (by simpa using maximal.solid) (by simpa using maximal.stop)

theorem exists_maximalRun {text : List Char} (filled : text ≠ []) (first : SolidFirst text) :
    ∃ run rest, text = run ++ rest ∧ run ≠ [] ∧ MaximalRun run rest := by
  refine ⟨_, _, List.takeWhile_append_dropWhile.symm, ?_, maximalRun_takeWhile text⟩
  obtain ⟨c, text, rfl⟩ := List.exists_cons_of_ne_nil filled
  simp [first c rfl]

theorem words_nil : words [] = [] := rfl

theorem words_cons_blank {c : Char} (blank : isBlank c = true) (text : List Char) :
    words (c :: text) = words text := by
  simpa [words_nil] using words_append_blank blank [] text

theorem words_trimStart (text : List Char) : words (trimStart text) = words text := by
  induction text with
  | nil => rfl
  | cons c text ih =>
    cases blank : isBlank c with
    | true => simpa [trimStart, blank, words_cons_blank blank] using ih
    | false => simp [trimStart, blank]

/-- The first word is the run at the start of the text. -/
theorem MaximalRun.words_append {run rest : List Char} (maximal : MaximalRun run rest)
    (filled : run ≠ []) : words (run ++ rest) = run :: words rest := by
  cases rest with
  | nil => simp [words_of_solid filled maximal.solid, words_nil]
  | cons c rest =>
    have blank := maximal.stop c rfl
    simp [words_append_blank blank, words_of_solid filled maximal.solid, words_cons_blank blank]

/-- One more character at the start is a word of its own or begins the first word. -/
theorem words_cons_solid {c : Char} (solid : isBlank c = false) (text : List Char) :
    words (c :: text) = [c] :: words text ∨
      ∃ first more, words text = first :: more ∧ words (c :: text) = (c :: first) :: more := by
  have maximal := maximalRun_takeWhile text
  rw [← List.takeWhile_append_dropWhile (p := (!isBlank ·)) (l := text)]
  generalize text.takeWhile (!isBlank ·) = run, text.dropWhile (!isBlank ·) = rest at maximal ⊢
  have longer : MaximalRun (c :: run) rest :=
    ⟨List.forall_mem_cons.mpr ⟨solid, maximal.solid⟩, maximal.stop⟩
  have words_longer := longer.words_append (List.cons_ne_nil c run)
  by_cases empty : run = []
  · subst empty
    exact Or.inl words_longer
  · exact Or.inr ⟨run, words rest, maximal.words_append empty, words_longer⟩

/-- A text in front adds words and makes the first word longer. -/
theorem exists_words_append (before : List Char) {after token : List Char} {more : List (List Char)}
    (found : words after = token :: more) :
    ∃ init front, words (before ++ after) = init ++ (front ++ token) :: more := by
  induction before with
  | nil => exact ⟨[], [], found⟩
  | cons c before ih =>
    obtain ⟨init, front, shape⟩ := ih
    cases blank : isBlank c with
    | true => exact ⟨init, front, (words_cons_blank blank _).trans shape⟩
    | false =>
      rcases words_cons_solid blank (before ++ after) with alone | ⟨first, rest, same, joined⟩
      · exact ⟨[c] :: init, front, by simp [alone, shape]⟩
      · rw [shape] at same
        cases init with
        | nil =>
          obtain ⟨rfl, rfl⟩ := List.cons.inj same
          exact ⟨[], c :: front, by simpa using joined⟩
        | cons word init =>
          obtain ⟨rfl, rfl⟩ := List.cons.inj same
          exact ⟨(c :: word) :: init, front, by simpa using joined⟩

/-- What a word ends with begins a later part of the text. -/
theorem exists_append_of_words {text front token : List Char} {init more : List (List Char)}
    (filled : token ≠ []) (found : words text = init ++ (front ++ token) :: more) :
    ∃ before after, text = before ++ after ∧ SolidFirst after ∧ words after = token :: more := by
  induction text generalizing init front with
  | nil => simp [words_nil] at found
  | cons c text ih =>
    have later : ∀ init front, words text = init ++ (front ++ token) :: more →
        ∃ before after, c :: text = before ++ after ∧ SolidFirst after ∧
          words after = token :: more := by
      intro init front shape
      obtain ⟨before, after, rfl, rest⟩ := ih shape
      exact ⟨c :: before, after, rfl, rest⟩
    cases blank : isBlank c with
    | true => exact later init front ((words_cons_blank blank text).symm.trans found)
    | false =>
      -- the part begins here, or one character less of the words is left to look at
      cases init with
      | nil =>
        cases front with
        | nil => exact ⟨[], c :: text, rfl, solidFirst_cons blank text, found⟩
        | cons d front =>
          rcases words_cons_solid blank text with alone | ⟨first, rest, same, joined⟩
          · simp [found, filled] at alone
          · obtain ⟨sameWord, rfl⟩ := List.cons.inj (found.symm.trans joined)
            obtain rfl : front ++ token = first := (List.cons.inj sameWord).2
            exact later [] front same
      | cons word init =>
        rcases words_cons_solid blank text with alone | ⟨first, rest, same, joined⟩
        · exact later init front (List.cons.inj (alone.symm.trans found)).2
        · obtain rfl : rest = init ++ (front ++ token) :: more :=
            (List.cons.inj (joined.symm.trans found)).2
          exact later (first :: init) front same

end SchemaLint.Text
