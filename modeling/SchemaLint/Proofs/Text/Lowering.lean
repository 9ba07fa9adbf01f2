import SchemaLint.Text.Lowercase

/-! Lower case of a text that goes on. A text is lowered from left to right and
only a capital sigma looks ahead, so the lower case of a text begins that of every
longer one, unless a sigma at its end turns out to stand inside a word. -/
namespace SchemaLint.Text

/-- The last character that is not looked past is cased. -/
def endsCased (text : List Char) : Bool := beginsCased text.reverse

/-- A capital sigma ends a word of the first text, and the second text goes on with
that word. -/
def SigmaAcross (left right : List Char) : Prop :=
  ∃ before ignored, left = before ++ '\u03A3' :: ignored ∧ endsCased before = true ∧
    (∀ c ∈ ignored, isCaseIgnorable c = true) ∧ beginsCased right = true

section Context

variable {text : List Char}

theorem beginsCased_cons (c : Char) (text : List Char) :
    beginsCased (c :: text) = if isCaseIgnorable c then beginsCased text else isCased c := by
  cases ignorable : isCaseIgnorable c <;> simp [beginsCased, ignorable]

theorem beginsCased_append_of_ignorable (ignorable : ∀ c ∈ text, isCaseIgnorable c = true)
    (more : List Char) : beginsCased (text ++ more) = beginsCased more := by
  induction text with
  | nil => rfl
  | cons c text ih =>
    obtain ⟨here, later⟩ := List.forall_mem_cons.mp ignorable
    simpa [beginsCased_cons, here] using ih later

theorem not_beginsCased_of_ignorable (ignorable : ∀ c ∈ text, isCaseIgnorable c = true) :
    beginsCased text = false := by
  simpa [beginsCased] using beginsCased_append_of_ignorable ignorable []

/-- What comes after the first character that counts is not looked at. -/
theorem beginsCased_append_of_counts (counts : ∃ c ∈ text, isCaseIgnorable c = false)
    (more : List Char) : beginsCased (text ++ more) = beginsCased text := by
  induction text with
  | nil => simp at counts
  | cons c text ih =>
    cases ignorable : isCaseIgnorable c with
    | false => simp [beginsCased_cons, ignorable]
    | true =>
      obtain ⟨d, member, plain⟩ := counts
      have later : d ∈ text := by
        rcases List.mem_cons.mp member with rfl | later
        · simp [ignorable] at plain
        · exact later
      simpa [beginsCased_cons, ignorable] using ih ⟨d, later, plain⟩

theorem endsCased_concat (text : List Char) (c : Char) :
    endsCased (text ++ [c]) = if isCaseIgnorable c then endsCased text else isCased c := by
  simp [endsCased, beginsCased_cons]

end Context

/-- The lower case of a character, given what stands before it and after it. -/
def lowered (afterCased : Bool) (c : Char) (after : List Char) : List Char :=
  if c = '\u0130' then ['i', '\u0307']
  else if c = '\u03A3' && afterCased && !beginsCased after then ['\u03C2']
  else [toLower c]

theorem lowercaseFrom_cons (before : List Char) (c : Char) (text : List Char) :
    lowercaseFrom (endsCased before) (c :: text) =
      lowered (endsCased before) c text ++ lowercaseFrom (endsCased (before ++ [c])) text := by
  simp only [lowercaseFrom, lowered, endsCased_concat]

/-- A character is lowered in the same way when the text goes on, or else it is a
sigma that has lost its place at the end of a word. -/
theorem lowered_append (afterCased : Bool) (c : Char) (text more : List Char) :
    lowered afterCased c (text ++ more) = lowered afterCased c text ∨
      c = '\u03A3' ∧ afterCased = true ∧ (∀ d ∈ text, isCaseIgnorable d = true) ∧
        beginsCased more = true := by
  by_cases ignorable : ∀ d ∈ text, isCaseIgnorable d = true
  · have alone := not_beginsCased_of_ignorable ignorable
    have joined := beginsCased_append_of_ignorable ignorable more
    simp only [lowered, alone, joined]
    grind
  · have counts : ∃ d ∈ text, isCaseIgnorable d = false := by
      simpa using ignorable
    left
    simp only [lowered, beginsCased_append_of_counts counts more]

theorem lowered_sigma_final {text : List Char} (final : beginsCased text = false) :
    lowered true '\u03A3' text = ['\u03C2'] := by
  simp [lowered, final]

theorem lowered_sigma_inner {text : List Char} (inner : beginsCased text = true) :
    lowered true '\u03A3' text = ['\u03C3'] := by
  have small : toLower '\u03A3' = '\u03C3' := by decide +kernel
  simp [lowered, inner, small]

/-- The sigma that is lowered in two ways, where `done` stands before the texts. -/
private def SigmaAcrossAfter (done left right : List Char) : Prop :=
  ∃ before ignored, left = before ++ '\u03A3' :: ignored ∧ endsCased (done ++ before) = true ∧
    (∀ c ∈ ignored, isCaseIgnorable c = true) ∧ beginsCased right = true

private theorem sigmaAcrossAfter_cons {done : List Char} {c : Char} {left right : List Char} :
    SigmaAcrossAfter done (c :: left) right ↔
      (c = '\u03A3' ∧ endsCased done = true ∧ (∀ d ∈ left, isCaseIgnorable d = true) ∧
        beginsCased right = true) ∨ SigmaAcrossAfter (done ++ [c]) left right := by
  constructor
  · rintro ⟨before, ignored, same, cased, ignorable, goesOn⟩
    cases before with
    | nil =>
      obtain ⟨rfl, rfl⟩ := List.cons.inj same
      exact Or.inl ⟨rfl, by simpa using cased, ignorable, goesOn⟩
    | cons d before =>
      obtain ⟨rfl, rfl⟩ := List.cons.inj same
      exact Or.inr ⟨before, ignored, rfl, by simpa using cased, ignorable, goesOn⟩
  · rintro (⟨rfl, cased, ignorable, goesOn⟩ | ⟨before, ignored, rfl, cased, ignorable, goesOn⟩)
    · exact ⟨[], left, rfl, by simpa using cased, ignorable, goesOn⟩
    · exact ⟨c :: before, ignored, rfl, by simpa using cased, ignorable, goesOn⟩

private theorem lowercaseFrom_isPrefix_append_iff (done : List Char) {left right : List Char} :
    lowercaseFrom (endsCased done) left <+: lowercaseFrom (endsCased done) (left ++ right) ↔
      ¬ SigmaAcrossAfter done left right := by
  induction left generalizing done with
  | nil => simp [lowercaseFrom, SigmaAcrossAfter]
  | cons c left ih =>
    simp only [List.cons_append, lowercaseFrom_cons, sigmaAcrossAfter_cons, not_or]
    by_cases across : c = '\u03A3' ∧ endsCased done = true ∧
        (∀ d ∈ left, isCaseIgnorable d = true) ∧ beginsCased right = true
    · obtain ⟨rfl, cased, ignorable, goesOn⟩ := across
      have final := not_beginsCased_of_ignorable ignorable
      have inner : beginsCased (left ++ right) = true :=
        (beginsCased_append_of_ignorable ignorable right).trans goesOn
      refine iff_of_false ?_ fun unbroken => unbroken.1 ⟨rfl, cased, ignorable, goesOn⟩
      simp [cased, lowered_sigma_final final, lowered_sigma_inner inner]
    · have kept := (lowered_append (endsCased done) c left right).resolve_right across
      simp only [kept, List.prefix_append_right_inj, ih, across, not_false_eq_true, true_and]

/-- The lower case of a text begins that of the text with more after it, unless a
sigma lies across the joint. -/
theorem lowercase_isPrefix_append_iff {left right : List Char} :
    lowercase left <+: lowercase (left ++ right) ↔ ¬ SigmaAcross left right :=
  lowercaseFrom_isPrefix_append_iff []

end SchemaLint.Text
