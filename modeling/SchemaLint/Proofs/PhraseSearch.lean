import SchemaLint.Phrase
import SchemaLint.Proofs.Text.Reading

/-! Where a phrase occurs when texts are put one after the other. A terminator
after a text keeps all its occurrences, whatever comes next; and a phrase whose
words hold no gap cannot reach past the end of a text that is closed. -/
namespace SchemaLint.Phrase
open Text

/-- The phrase is read at some position of the text. -/
def occurs (words : List (List Char)) (text : List Char) : Bool := anySuffix (begins words) text

/-- After a word: the text ends with the phrase, or a gap leads to its next
words. -/
def goesOn (words : List (List Char)) : List Char → Bool
  | [] => words.isEmpty
  | c :: text => (readGap (c :: text)).any (begins words)

theorem begins_cons (word : List Char) (words : List (List Char)) (text : List Char) :
    begins (word :: words) text = (readCaseless word text).any (goesOn words) := by
  rw [begins]
  cases readCaseless word text with
  | none => rfl
  | some rest => cases rest <;> rfl

theorem isBlank_terminator : isBlank terminator = false := rfl

/-- The characters of which gaps are made. -/
def IsGap (c : Char) : Prop := isBlank c = true ∨ c = terminator

instance (c : Char) : Decidable (IsGap c) := inferInstanceAs (Decidable (_ ∨ _))

/-- Only the characters of the text are tried, not every character there is. -/
theorem forall_mem_of_all {test : Char → Prop} [DecidablePred test] {text : List Char}
    (all : text.all (fun c => decide (test c)) = true) : ∀ c ∈ text, test c :=
  fun c member => of_decide_eq_true (List.all_eq_true.mp all c member)

theorem readGap_terminator (text : List Char) : readGap (terminator :: text) = some text := rfl

theorem readGap_blank {c : Char} (blank : isBlank c = true) (text : List Char) :
    readGap (c :: text) = some (trimStart text) := by
  have other : c ≠ terminator := by
    rintro rfl
    cases blank
  rw [readGap, if_neg other, readBlanks, if_pos blank]

theorem readGap_solid {c : Char} (solid : ¬ IsGap c) (text : List Char) :
    readGap (c :: text) = none := by
  obtain ⟨solid, other⟩ := not_or.mp solid
  rw [readGap, if_neg other, readBlanks, if_neg solid]

theorem readBy_append {same : Char → Char → Bool} {spelling text rest : List Char}
    (read : readBy same spelling text = some rest) (more : List Char) :
    readBy same spelling (text ++ more) = some (rest ++ more) := by
  induction spelling generalizing text with
  | nil =>
    cases read
    rfl
  | cons p spelling ih =>
    cases text with
    | nil => cases read
    | cons c text =>
      rw [readBy] at read
      split at read
      · rename_i agrees
        rw [List.cons_append, readBy, if_pos agrees, ih read]
      · cases read

section Survival

variable {words : List (List Char)}

/-- The terminator takes the place of the end of the text as the last gap. -/
theorem begins_append_terminator {text : List Char} (found : begins words text = true)
    (more : List Char) : begins words (text ++ terminator :: more) = true := by
  induction words generalizing text with
  | nil => rfl
  | cons word words ih =>
    rw [begins_cons, Option.any_eq_true] at found ⊢
    obtain ⟨rest, read, found⟩ := found
    refine ⟨rest ++ terminator :: more, readBy_append read _, ?_⟩
    cases rest with
    | nil =>
      obtain rfl : words = [] := List.isEmpty_iff.mp found
      rfl
    | cons c rest =>
      rw [List.cons_append]
      by_cases gap : IsGap c
      · rcases gap with blank | rfl
        · simp only [goesOn, readGap_blank blank, Option.any_some] at found ⊢
          by_cases left : trimStart rest = []
          · -- the blanks reach the end of the text, and now they reach the terminator
            rw [left] at found
            have survived := ih found
            rw [trimStart_append (trimStart_eq_nil_iff.mp left)]
            simpa [trimStart, isBlank_terminator] using survived
          · rw [trimStart_append_of_ne_nil left]
            exact ih found
        · simp only [goesOn, readGap_terminator, Option.any_some] at found ⊢
          exact ih found
      · simp [goesOn, readGap_solid gap] at found

theorem occurs_append_terminator {left : List Char} (found : occurs words left = true)
    (right : List Char) : occurs words (left ++ terminator :: right) = true := by
  obtain ⟨before, after, same, here⟩ := anySuffix_iff.mp found
  refine anySuffix_iff.mpr ⟨before, after ++ terminator :: right, ?_, ?_⟩
  · rw [same, List.append_assoc]
  · exact begins_append_terminator here right

theorem occurs_append_right {right : List Char} (found : occurs words right = true)
    (left : List Char) : occurs words (left ++ right) = true := by
  obtain ⟨before, after, same, here⟩ := anySuffix_iff.mp found
  exact anySuffix_iff.mpr ⟨left ++ before, after, by rw [same, List.append_assoc], here⟩

end Survival

/-- Words that are not empty and hold no gap. -/
def Solid (words : List (List Char)) : Prop := ∀ word ∈ words, word ≠ [] ∧ ∀ c ∈ word, ¬ IsGap c

theorem solid_iff {words : List (List Char)} :
    Solid words ↔
      words.all (fun word => !word.isEmpty && word.all fun c => !decide (IsGap c)) = true := by
  simp [Solid]

instance (words : List (List Char)) : Decidable (Solid words) := decidable_of_iff _ solid_iff.symm

/-- The text is empty or begins with a gap. -/
def GapFirst (text : List Char) : Prop := ∀ c, text.head? = some c → IsGap c

/-- The text ends the one before it: what it begins with is a gap, and no word
comes right after that gap. -/
structure Closing (text : List Char) : Prop where
  first : GapFirst text
  second : ∀ rest, readGap text = some rest → GapFirst rest

theorem not_sameLetter_of_gap {p c : Char} (solid : ¬ IsGap p) (gap : IsGap c) :
    sameLetter p c = false := by
  rw [Bool.eq_false_iff]
  intro same
  rcases gap with blank | rfl
  · obtain rfl := eq_of_sameLetter_blank blank same
    exact solid (Or.inl blank)
  · have range : Uncased (terminator.toNat, terminator.toNat) := by decide +kernel
    obtain rfl := eq_of_sameLetter range ⟨Nat.le_refl _, Nat.le_refl _⟩ same
    exact solid (Or.inr rfl)

theorem readCaseless_gapFirst {p : Char} {word text : List Char} (solid : ¬ IsGap p)
    (first : GapFirst text) : readCaseless (p :: word) text = none := by
  cases text with
  | nil => rfl
  | cons c text =>
    rw [readCaseless, readBy, not_sameLetter_of_gap solid (first c rfl), if_neg Bool.false_ne_true]

theorem readCaseless_append_gapFirst {word tail : List Char} (solid : ∀ c ∈ word, ¬ IsGap c)
    (first : GapFirst tail) (text : List Char) :
    readCaseless word (text ++ tail) = (readCaseless word text).map (· ++ tail) :=
  readCaseless_append_apart
    (fun p member c head => not_sameLetter_of_gap (solid p member) (first c head)) text

theorem gapFirst_nil : GapFirst [] := by
  intro c head
  cases head

theorem begins_gapFirst {words : List (List Char)} (solid : Solid words) {text : List Char}
    (first : GapFirst text) : begins words text = words.isEmpty := by
  cases words with
  | nil => rfl
  | cons word words =>
    obtain ⟨nonempty, plain⟩ := solid word List.mem_cons_self
    obtain ⟨p, word, rfl⟩ := List.exists_cons_of_ne_nil nonempty
    rw [begins_cons, readCaseless_gapFirst (plain p List.mem_cons_self) first]
    rfl

theorem occurs_nil (text : List Char) : occurs [] text = true := by
  cases text <;> rfl

theorem occurs_in_nil {words : List (List Char)} (solid : Solid words) :
    occurs words [] = words.isEmpty :=
  begins_gapFirst solid gapFirst_nil

theorem Closing.trimStart {tail : List Char} (closing : Closing tail) :
    GapFirst (trimStart tail) := by
  cases tail with
  | nil => exact closing.first
  | cons c tail =>
    rcases closing.first c rfl with blank | rfl
    · have rest := closing.second _ (readGap_blank blank tail)
      simpa [Text.trimStart, blank] using rest
    · simpa [Text.trimStart, isBlank_terminator] using closing.first

theorem Closing.goesOn {words : List (List Char)} (solid : Solid words) {tail : List Char}
    (closing : Closing tail) : goesOn words tail = words.isEmpty := by
  cases tail with
  | nil => rfl
  | cons c tail =>
    obtain ⟨rest, read⟩ : ∃ rest, readGap (c :: tail) = some rest := by
      rcases closing.first c rfl with blank | rfl
      · exact ⟨_, readGap_blank blank tail⟩
      · exact ⟨_, readGap_terminator tail⟩
    rw [Phrase.goesOn, read, Option.any_some, begins_gapFirst solid (closing.second rest read)]

/-- No phrase that begins in a text ends past a tail that closes it. -/
theorem begins_append {words : List (List Char)} (solid : Solid words) {tail : List Char}
    (closing : Closing tail) (text : List Char) :
    begins words (text ++ tail) = begins words text := by
  induction words generalizing text with
  | nil => rfl
  | cons word words ih =>
    obtain ⟨-, plain⟩ := solid word List.mem_cons_self
    have others : Solid words := fun next member => solid next (List.mem_cons_of_mem _ member)
    rw [begins_cons, begins_cons, readCaseless_append_gapFirst plain closing.first]
    cases readCaseless word text with
    | none => rfl
    | some rest =>
      rw [Option.map_some, Option.any_some, Option.any_some]
      cases rest with
      | nil => exact closing.goesOn others
      | cons c rest =>
        by_cases gap : IsGap c
        · rcases gap with blank | rfl
          · simp only [goesOn, List.cons_append, readGap_blank blank, Option.any_some]
            by_cases left : trimStart rest = []
            · rw [trimStart_append (trimStart_eq_nil_iff.mp left), left,
                begins_gapFirst others closing.trimStart, begins_gapFirst others gapFirst_nil]
            · rw [trimStart_append_of_ne_nil left, ih others]
          · simp only [goesOn, List.cons_append, readGap_terminator, Option.any_some, ih others]
        · simp only [goesOn, List.cons_append, readGap_solid gap, Option.any_none]

/-- The occurrences in a text and in one that closes it are all there are. -/
theorem occurs_append {words : List (List Char)} (solid : Solid words) {tail : List Char}
    (closing : Closing tail) (text : List Char) :
    occurs words (text ++ tail) = (occurs words text || occurs words tail) := by
  induction text with
  | nil =>
    rw [List.nil_append, occurs_in_nil solid]
    cases words with
    | nil => rw [occurs_nil, Bool.or_true]
    | cons word words => rfl
  | cons c text ih =>
    have here := begins_append solid closing (c :: text)
    simp only [occurs, List.cons_append, anySuffix] at here ih ⊢
    rw [here, ih, Bool.or_assoc]

theorem occurs_gap_cons {words : List (List Char)} (solid : Solid words) {c : Char} (gap : IsGap c)
    (text : List Char) : occurs words (c :: text) = occurs words text := by
  cases words with
  | nil => rw [occurs_nil, occurs_nil]
  | cons word words =>
    have first : GapFirst (c :: text) := by
      intro d head
      exact Option.some.inj head ▸ gap
    simp only [occurs, anySuffix, begins_gapFirst solid first, List.isEmpty_cons, Bool.false_or]

theorem occurs_gaps_append {words : List (List Char)} (solid : Solid words) {gaps : List Char}
    (all : ∀ c ∈ gaps, IsGap c) (text : List Char) :
    occurs words (gaps ++ text) = occurs words text := by
  induction gaps with
  | nil => rfl
  | cons c gaps ih =>
    rw [List.cons_append, occurs_gap_cons solid (all c List.mem_cons_self),
      ih fun d member => all d (List.mem_cons_of_mem _ member)]

theorem closing_of_gaps {gaps : List Char} (all : ∀ c ∈ gaps, IsGap c) : Closing gaps := by
  have first : ∀ {text : List Char}, (∀ c ∈ text, IsGap c) → GapFirst text :=
    fun inside c head => inside c (List.mem_of_head? head)
  refine ⟨first all, ?_⟩
  intro rest read
  cases gaps with
  | nil => cases read
  | cons c gaps =>
    have later : ∀ d ∈ gaps, IsGap d := fun d member => all d (List.mem_cons_of_mem _ member)
    rcases all c List.mem_cons_self with blank | rfl
    · rw [readGap_blank blank] at read
      cases read
      exact first fun d member => later d ((List.dropWhile_sublist _).subset member)
    · rw [readGap_terminator] at read
      cases read
      exact first later

theorem occurs_append_gaps {words : List (List Char)} (solid : Solid words) {gaps : List Char}
    (all : ∀ c ∈ gaps, IsGap c) (text : List Char) :
    occurs words (text ++ gaps) = occurs words text := by
  have closed : Closing [] := closing_of_gaps (by simp)
  have atGaps := occurs_gaps_append solid all []
  have atEnd := occurs_append solid closed text
  rw [List.append_nil] at atGaps atEnd
  rw [occurs_append solid (closing_of_gaps all), atGaps, ← atEnd]

end SchemaLint.Phrase
