import SchemaLint.Proofs.Text.OneLine

/-! Texts that differ only in the style of their line breaks. The relation is
stated on the texts themselves and turns out to be equality on one line. -/
namespace SchemaLint.Text

/-- A line break of some style, or a space in the place of one, stands right
before `rest`. A carriage return is a line break of its own unless a line feed
follows. -/
inductive BreakBefore (rest : List Char) : List Char → Prop where
  | pair : BreakBefore rest ('\r' :: '\n' :: rest)
  | feed : BreakBefore rest ('\n' :: rest)
  | lone (single : rest.head? ≠ some '\n') : BreakBefore rest ('\r' :: rest)
  | space : BreakBefore rest (' ' :: rest)

/-- The texts are the same but for the style of their line breaks. -/
inductive SameLines : List Char → List Char → Prop where
  | done : SameLines [] []
  | char {c : Char} {left right : List Char} (plain : isLineBreak c = false)
      (rest : SameLines left right) : SameLines (c :: left) (c :: right)
  | restyled {left right first second : List Char} (one : BreakBefore left first)
      (other : BreakBefore right second) (rest : SameLines left right) : SameLines first second

theorem BreakBefore.onOneLine {rest text : List Char} (breaks : BreakBefore rest text) :
    onOneLine text = ' ' :: onOneLine rest := by
  simp only [onOneLine_eq_markBreaks]
  cases breaks with
  | pair => rfl
  | feed => exact markBreaks_cons (by simp [BreakAcross]) ' '
  | lone single => exact markBreaks_cons (by simp [BreakAcross, single]) ' '
  | space => exact markBreaks_cons (by simp [BreakAcross]) ' '

theorem SameLines.onOneLine_eq {left right : List Char} (same : SameLines left right) :
    onOneLine left = onOneLine right := by
  induction same with
  | done => rfl
  | char plain _ ih => rw [onOneLine_cons plain, onOneLine_cons plain, ih]
  | restyled one other _ ih => rw [one.onOneLine, other.onOneLine, ih]

/-- How the first character of a text on one line came about. -/
theorem of_onOneLine_eq_cons {text line : List Char} {d : Char}
    (same : onOneLine text = d :: line) :
    ∃ rest, onOneLine rest = line ∧
      ((d = ' ' ∧ BreakBefore rest text) ∨ (isLineBreak d = false ∧ text = d :: rest)) := by
  cases text with
  | nil => cases same
  | cons c text =>
    by_cases broken : isLineBreak c = true
    · obtain ⟨rest, breaks⟩ : ∃ rest, BreakBefore rest (c :: text) := by
        simp only [isLineBreak, Bool.or_eq_true, beq_iff_eq] at broken
        rcases broken with rfl | rfl
        · by_cases feed : text.head? = some '\n'
          · obtain ⟨rest, rfl⟩ := List.head?_eq_some_iff.mp feed
            exact ⟨rest, .pair⟩
          · exact ⟨text, .lone feed⟩
        · exact ⟨text, .feed⟩
      rw [breaks.onOneLine] at same
      obtain ⟨space, line⟩ := List.cons.inj same
      exact ⟨rest, line, Or.inl ⟨space.symm, breaks⟩⟩
    · rw [Bool.not_eq_true] at broken
      rw [onOneLine_cons broken] at same
      obtain ⟨rfl, line⟩ := List.cons.inj same
      exact ⟨text, line, Or.inr ⟨broken, rfl⟩⟩

theorem sameLines_of_onOneLine_eq {left right : List Char}
    (same : onOneLine left = onOneLine right) : SameLines left right := by
  -- both texts are read along the one line that they share
  generalize line_eq : onOneLine right = line at same
  induction line generalizing left right with
  | nil =>
    rw [onOneLine_eq_nil_iff] at same line_eq
    subst same line_eq
    exact .done
  | cons d line ih =>
    obtain ⟨restLeft, lineLeft, styleLeft⟩ := of_onOneLine_eq_cons same
    obtain ⟨restRight, lineRight, styleRight⟩ := of_onOneLine_eq_cons line_eq
    have rest := ih lineRight lineLeft
    rcases styleLeft with ⟨space, one⟩ | ⟨plain, rfl⟩
    · rcases styleRight with ⟨-, other⟩ | ⟨-, rfl⟩
      · exact .restyled one other rest
      · exact .restyled one (space ▸ .space) rest
    · rcases styleRight with ⟨space, other⟩ | ⟨-, rfl⟩
      · exact .restyled (space ▸ .space) other rest
      · exact .char plain rest

theorem sameLines_iff {left right : List Char} :
    SameLines left right ↔ onOneLine left = onOneLine right :=
  ⟨SameLines.onOneLine_eq, sameLines_of_onOneLine_eq⟩

instance (left right : List Char) : Decidable (SameLines left right) :=
  decidable_of_iff _ sameLines_iff.symm

/-- Line feeds can stand for all line breaks. -/
theorem sameLines_markBreaks (text : List Char) : SameLines text (markBreaks '\n' text) := by
  fun_induction markBreaks '\n' text with
  | case1 => exact .done
  | case2 text ih => exact .restyled .pair .feed ih
  | case3 c text single ih =>
    by_cases broken : isLineBreak c = true
    · rw [if_pos broken]
      simp only [isLineBreak, Bool.or_eq_true, beq_iff_eq] at broken
      rcases broken with rfl | rfl
      · have lone : text.head? ≠ some '\n' := by
          intro feed
          exact not_breakAcross_of_single single ⟨rfl, feed⟩
        exact .restyled (.lone lone) .feed ih
      · exact .restyled .feed .feed ih
    · rw [if_neg broken]
      exact .char (Bool.not_eq_true _ ▸ broken) ih

end SchemaLint.Text
