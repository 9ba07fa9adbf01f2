import SchemaLint.Proofs.Text.Cutting
import SchemaLint.Proofs.Text.Trimming
import SchemaLint.Text.LineBreak

/-! Text on one line. Replacing the three kinds of line break in turn is the same
as reading the text once; so it goes piece by piece, and the style of a line
break leaves no trace. -/
namespace SchemaLint.Text

/-- The end of one text and the start of the next make up a single line break. -/
def BreakAcross (left right : List Char) : Prop :=
  left.getLast? = some '\r' ∧ right.head? = some '\n'

theorem markBreaks_cons {c : Char} {text : List Char} (apart : ¬ BreakAcross [c] text)
    (mark : Char) :
    markBreaks mark (c :: text) = (if isLineBreak c then mark else c) :: markBreaks mark text := by
  rw [markBreaks.eq_3]
  rintro rest rfl rfl
  exact apart ⟨rfl, rfl⟩

theorem not_breakAcross_of_head {c : Char} (plain : isLineBreak c = false) (text : List Char) :
    ¬ BreakAcross [c] text := by
  rintro ⟨last, -⟩
  obtain rfl := Option.some.inj last
  cases plain

theorem not_breakAcross_of_single {c : Char} {text : List Char}
    (single : ∀ rest, c = '\r' → text = '\n' :: rest → False) : ¬ BreakAcross [c] text := by
  rintro ⟨last, head⟩
  obtain ⟨rest, feed⟩ := List.head?_eq_some_iff.mp head
  exact single rest (Option.some.inj last) feed

theorem BreakAcross.cons {left right : List Char} (across : BreakAcross left right) (c : Char) :
    BreakAcross (c :: left) right := by
  obtain ⟨last, head⟩ := across
  exact ⟨by simp [List.getLast?_cons, last], head⟩

theorem markBreaks_append (mark : Char) {left right : List Char}
    (apart : ¬ BreakAcross left right) :
    markBreaks mark (left ++ right) = markBreaks mark left ++ markBreaks mark right := by
  fun_induction markBreaks mark left with
  | case1 => rfl
  | case2 text ih =>
    have rest : ¬ BreakAcross text right := fun across => apart ((across.cons _).cons _)
    simp [markBreaks, ih rest]
  | case3 c text single ih =>
    have rest : ¬ BreakAcross text right := fun across => apart (across.cons c)
    have first : ¬ BreakAcross [c] (text ++ right) := by
      rintro ⟨last, head⟩
      cases text with
      | nil => exact apart ⟨last, head⟩
      | cons d text => exact not_breakAcross_of_single single ⟨last, head⟩
    rw [List.cons_append, markBreaks_cons first, ih rest, List.cons_append]

private theorem replacePair_cons {c : Char} {text : List Char} (apart : ¬ BreakAcross [c] text) :
    replaceAll ['\r', '\n'] [' '] (c :: text) = c :: replaceAll ['\r', '\n'] [' '] text := by
  have differs : (['\r', '\n'] : List Char).isPrefixOf (c :: text) = false := by
    rw [Bool.eq_false_iff]
    intro begins
    obtain ⟨rest, same⟩ := List.isPrefixOf_iff_prefix.mp begins
    obtain ⟨rfl, rfl⟩ := List.cons.inj same
    exact apart ⟨rfl, rfl⟩
  simp [replaceAll, substitute, substituteFrom, differs]

/-- The three replacements do not see each other's leftovers. -/
theorem onOneLine_eq_markBreaks (text : List Char) : onOneLine text = markBreaks ' ' text := by
  fun_induction markBreaks ' ' text with
  | case1 => rfl
  | case2 text ih =>
    rw [← ih, onOneLine, onOneLine]
    simp only [replaceAll_singleton]
    rfl
  | case3 c text single ih =>
    rw [← ih, onOneLine, replacePair_cons (not_breakAcross_of_single single), onOneLine]
    simp only [replaceAll_singleton, List.map_cons, List.cons.injEq, and_true]
    by_cases feed : c = '\n'
    · simp [feed, isLineBreak]
    · by_cases ret : c = '\r'
      · simp [ret, isLineBreak]
      · simp [feed, ret, isLineBreak]

theorem onOneLine_append {left right : List Char} (apart : ¬ BreakAcross left right) :
    onOneLine (left ++ right) = onOneLine left ++ onOneLine right := by
  simp only [onOneLine_eq_markBreaks, markBreaks_append ' ' apart]

theorem onOneLine_cons {c : Char} (plain : isLineBreak c = false) (text : List Char) :
    onOneLine (c :: text) = c :: onOneLine text := by
  simp only [onOneLine_eq_markBreaks, markBreaks_cons (not_breakAcross_of_head plain text), plain,
    Bool.false_eq_true, if_false]

/-- A character that is no part of a line break keeps its two sides apart. -/
theorem onOneLine_append_cons {c : Char} (plain : isLineBreak c = false) (left right : List Char) :
    onOneLine (left ++ c :: right) = onOneLine left ++ c :: onOneLine right := by
  have apart : ¬ BreakAcross left (c :: right) := by
    rintro ⟨-, head⟩
    obtain rfl := Option.some.inj head
    cases plain
  rw [onOneLine_append apart, onOneLine_cons plain]

/-- A carriage return with a line feed gives one space, whatever stands before. -/
theorem onOneLine_append_pair (left right : List Char) :
    onOneLine (left ++ '\r' :: '\n' :: right) = onOneLine left ++ ' ' :: onOneLine right := by
  have apart : ¬ BreakAcross left ('\r' :: '\n' :: right) := by
    rintro ⟨-, head⟩
    cases head
  have pair : onOneLine ('\r' :: '\n' :: right) = ' ' :: onOneLine right := by
    simp only [onOneLine_eq_markBreaks, markBreaks]
  rw [onOneLine_append apart, pair]

theorem onOneLine_concat_return (text : List Char) :
    onOneLine (text ++ ['\r']) = onOneLine text ++ [' '] :=
  onOneLine_append (by simp [BreakAcross])

theorem onOneLine_feed (text : List Char) : onOneLine ('\n' :: text) = ' ' :: onOneLine text := by
  simp only [onOneLine_eq_markBreaks]
  exact markBreaks_cons (by simp [BreakAcross]) ' '

theorem BreakAcross.exists_pair {left right : List Char} (across : BreakAcross left right) :
    ∃ start rest, left = start ++ ['\r'] ∧ right = '\n' :: rest := by
  obtain ⟨start, rfl⟩ := List.getLast?_eq_some_iff.mp across.1
  obtain ⟨rest, rfl⟩ := List.head?_eq_some_iff.mp across.2
  exact ⟨start, rest, rfl, rfl⟩

/-- Where a line break lies across the joint, one of its two characters is lost
on either side. -/
theorem onOneLine_append_eq (left right : List Char) :
    (∃ rest, rest <:+ right ∧ onOneLine (left ++ right) = onOneLine left ++ onOneLine rest) ∧
      ∃ start, start <+: left ∧ onOneLine (left ++ right) = onOneLine start ++ onOneLine right := by
  by_cases across : BreakAcross left right
  · obtain ⟨start, rest, rfl, rfl⟩ := across.exists_pair
    have pair := onOneLine_append_pair start rest
    refine ⟨⟨rest, List.suffix_cons _ _, ?_⟩, start, List.prefix_append _ _, ?_⟩
    · simp [onOneLine_concat_return, pair]
    · simp [onOneLine_feed, pair]
  · exact ⟨⟨right, List.suffix_rfl, onOneLine_append across⟩,
      left, List.prefix_rfl, onOneLine_append across⟩

/-- Only a line break across the joint makes a difference. -/
theorem onOneLine_append_iff {left right : List Char} :
    onOneLine (left ++ right) = onOneLine left ++ onOneLine right ↔ ¬ BreakAcross left right := by
  refine ⟨?_, onOneLine_append⟩
  intro same across
  obtain ⟨start, rest, rfl, rfl⟩ := across.exists_pair
  have pair := onOneLine_append_pair start rest
  have length := congrArg List.length same
  simp [onOneLine_concat_return, onOneLine_feed, pair] at length

theorem onOneLine_eq_self {text : List Char} (plain : ∀ c ∈ text, isLineBreak c = false) :
    onOneLine text = text := by
  induction text with
  | nil => rfl
  | cons c text ih =>
    rw [onOneLine_cons (plain c List.mem_cons_self),
      ih fun d member => plain d (List.mem_cons_of_mem _ member)]

@[simp] theorem onOneLine_onOneLine (text : List Char) :
    onOneLine (onOneLine text) = onOneLine text :=
  onOneLine_eq_self fun _ => not_isLineBreak_of_mem_onOneLine

theorem onOneLine_eq_nil_iff {text : List Char} : onOneLine text = [] ↔ text = [] := by
  rw [onOneLine_eq_markBreaks]
  fun_cases markBreaks ' ' text <;> simp

theorem mem_of_mem_onOneLine {text : List Char} {c : Char} (member : c ∈ onOneLine text) :
    c = ' ' ∨ c ∈ text := by
  rw [onOneLine_eq_markBreaks] at member
  fun_induction markBreaks ' ' text with
  | case1 => cases member
  | case2 text ih =>
    rcases List.mem_cons.mp member with space | later
    · exact Or.inl space
    · exact (ih later).imp_right fun present =>
        List.mem_cons_of_mem _ (List.mem_cons_of_mem _ present)
  | case3 d text _ ih =>
    rcases List.mem_cons.mp member with here | later
    · by_cases broken : isLineBreak d = true
      · exact Or.inl (by simpa [broken] using here)
      · exact Or.inr (by simp [broken] at here; simp [here])
    · exact (ih later).imp_right (List.mem_cons_of_mem _)

theorem isBlank_of_isLineBreak {c : Char} (broken : isLineBreak c = true) : isBlank c = true := by
  simp only [isLineBreak, Bool.or_eq_true, beq_iff_eq] at broken
  rcases broken with rfl | rfl <;> rfl

theorem not_isLineBreak_of_not_isBlank {c : Char} (solid : isBlank c = false) :
    isLineBreak c = false := by
  by_contra broken
  rw [Bool.not_eq_false] at broken
  rw [isBlank_of_isLineBreak broken] at solid
  cases solid

theorem unbroken_of_solid {word : List Char} (solid : ∀ c ∈ word, isBlank c = false) :
    word.any isLineBreak = false := by
  rw [List.any_eq_false]
  intro c member
  rw [not_isLineBreak_of_not_isBlank (solid c member)]
  exact Bool.false_ne_true

theorem Blank.onOneLine {text : List Char} (blank : Blank text) : Blank (onOneLine text) := by
  intro c member
  rcases mem_of_mem_onOneLine member with rfl | present
  · rfl
  · exact blank c present

theorem exists_onOneLine_blank {c : Char} (blank : isBlank c = true) (text : List Char) :
    ∃ d rest, onOneLine (c :: text) = d :: rest ∧ isBlank d = true := by
  obtain ⟨⟨more, -, same⟩, -⟩ := onOneLine_append_eq [c] text
  have blanks := (blank_singleton blank).onOneLine
  obtain ⟨d, gap, shape⟩ := List.exists_cons_of_ne_nil
    (fun empty => List.cons_ne_nil c [] (onOneLine_eq_nil_iff.mp empty))
  refine ⟨d, gap ++ onOneLine more, ?_, blanks d (shape ▸ List.mem_cons_self)⟩
  rw [← List.singleton_append, same, shape]
  rfl

theorem prefix_of_prefix_onOneLine {word text : List Char} (solid : ∀ c ∈ word, isBlank c = false)
    (begins : word <+: onOneLine text) : word <+: text := by
  rw [onOneLine_eq_markBreaks] at begins
  induction word generalizing text with
  | nil => exact List.nil_prefix
  | cons c word ih =>
    have own : isBlank c = false := solid c List.mem_cons_self
    have rest := fun d member => solid d (List.mem_cons_of_mem _ member)
    fun_cases markBreaks ' ' text with
    | case1 =>
      rw [markBreaks] at begins
      exact absurd (List.prefix_nil.mp begins) (List.cons_ne_nil _ _)
    | case2 text =>
      rw [markBreaks] at begins
      obtain ⟨rfl, -⟩ := List.cons_prefix_cons.mp begins
      cases own
    | case3 d text single =>
      rw [markBreaks_cons (not_breakAcross_of_single single)] at begins
      obtain ⟨same, later⟩ := List.cons_prefix_cons.mp begins
      split at same
      · subst same
        cases own
      · subst same
        exact List.cons_prefix_cons.mpr ⟨rfl, ih rest later⟩

/-- A text without blanks that stands on the one line stood in the text before. -/
theorem infix_of_infix_onOneLine {word text : List Char} (solid : ∀ c ∈ word, isBlank c = false)
    (inside : word <:+: onOneLine text) : word <:+: text := by
  have here : ∀ {text : List Char}, word <+: markBreaks ' ' text → word <:+: text := by
    intro text begins
    rw [← onOneLine_eq_markBreaks] at begins
    exact (prefix_of_prefix_onOneLine solid begins).isInfix
  rw [onOneLine_eq_markBreaks] at inside
  fun_induction markBreaks ' ' text with
  | case1 => exact inside
  | case2 text ih =>
    rcases List.infix_cons_iff.mp inside with begins | later
    · exact here (by rwa [markBreaks])
    · exact List.infix_cons (List.infix_cons (ih later))
  | case3 c text single ih =>
    rcases List.infix_cons_iff.mp inside with begins | later
    · exact here (by rwa [markBreaks_cons (not_breakAcross_of_single single)])
    · exact List.infix_cons (ih later)

theorem Trimmed.onOneLine {text : List Char} (trimmed : Trimmed text) :
    Trimmed (onOneLine text) := by
  rcases List.eq_nil_or_concat text with rfl | ⟨before, d, rfl⟩
  · exact trimmed
  have lastPlain := not_isLineBreak_of_not_isBlank (trimmed.last d (by simp))
  refine ⟨?_, ?_⟩
  · cases before with
    | nil =>
      intro c head
      rw [List.concat_eq_append, List.nil_append, onOneLine_cons lastPlain] at head
      exact trimmed.first c head
    | cons b before =>
      have firstPlain := not_isLineBreak_of_not_isBlank (trimmed.first b rfl)
      intro c head
      rw [List.concat_eq_append, List.cons_append, onOneLine_cons firstPlain] at head
      exact trimmed.first c head
  · intro c last
    rw [List.concat_eq_append, onOneLine_append_cons lastPlain, List.getLast?_append] at last
    exact trimmed.last c (by rwa [List.concat_eq_append, List.getLast?_append])

/-- It does not matter whether a text is trimmed before or after it is put on
one line: no line break lies half inside the blanks at an end. -/
theorem trim_onOneLine (text : List Char) : trim (onOneLine text) = onOneLine (trim text) := by
  obtain ⟨before, after, blankBefore, blankAfter, same⟩ := exists_trim text
  have trimmed := trimmed_trim text
  by_cases empty : trim text = []
  · have blank := trim_eq_nil_iff.mp empty
    rw [empty, trim_eq_nil_iff.mpr blank.onOneLine]
    rfl
  · have apartAfter : ¬ BreakAcross (before ++ trim text) after := by
      rintro ⟨last, -⟩
      have found := List.getLast?_eq_some_getLast empty
      rw [List.getLast?_append, found, Option.some_or] at last
      have solid := trimmed.last _ (found.trans last)
      cases solid
    have apartBefore : ¬ BreakAcross before (trim text) := by
      rintro ⟨-, head⟩
      have solid := trimmed.first _ head
      cases solid
    have line : onOneLine text = onOneLine before ++ onOneLine (trim text) ++ onOneLine after := by
      rw [← onOneLine_append apartBefore, ← onOneLine_append apartAfter, ← same]
    rw [line, trim_pad blankBefore.onOneLine blankAfter.onOneLine, trim_eq_self trimmed.onOneLine]

/-- Where no blank is cut at, cutting goes before or after putting on one line. -/
theorem pieces_onOneLine {cut : Char → Bool} (keeps : ∀ c, isBlank c = true → cut c = false)
    (text : List Char) : pieces cut (onOneLine text) = (pieces cut text).map onOneLine := by
  simp only [onOneLine_eq_markBreaks]
  fun_induction markBreaks ' ' text with
  | case1 => rfl
  | case2 text ih =>
    obtain ⟨piece, found, rest⟩ := exists_pieces cut text
    rw [rest, List.map_cons] at ih
    rw [pieces_cons_keep (keeps ' ' rfl) ih,
      pieces_cons_keep (keeps '\r' rfl) (pieces_cons_keep (keeps '\n' rfl) rest)]
    rfl
  | case3 c text single ih =>
    obtain ⟨piece, found, rest⟩ := exists_pieces cut text
    rw [rest, List.map_cons] at ih
    cases accepted : cut c with
    | true =>
      have plain : isLineBreak c = false := by
        by_contra broken
        rw [Bool.not_eq_false] at broken
        rw [keeps c (isBlank_of_isLineBreak broken)] at accepted
        cases accepted
      rw [plain, if_neg Bool.false_ne_true, pieces_cons_cut accepted, pieces_cons_cut accepted, ih,
        rest]
      rfl
    | false =>
      have marked : cut (if isLineBreak c then ' ' else c) = false := by
        split
        · exact keeps ' ' rfl
        · exact accepted
      -- a line feed at the start of the piece is one at the start of the text
      have apart : ¬ BreakAcross [c] piece := by
        rintro ⟨last, head⟩
        obtain ⟨tail, rfl⟩ := List.head?_eq_some_iff.mp head
        obtain ⟨after, rfl⟩ := first_piece_isPrefix rest
        exact not_breakAcross_of_single single ⟨last, rfl⟩
      rw [pieces_cons_keep marked ih, pieces_cons_keep accepted rest, List.map_cons,
        onOneLine_eq_markBreaks (c :: piece), markBreaks_cons apart, ← onOneLine_eq_markBreaks]

end SchemaLint.Text
