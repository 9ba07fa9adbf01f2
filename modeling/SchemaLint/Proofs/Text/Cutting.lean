import SchemaLint.Text.Blank

/-! Cutting a text at some of its characters. The pieces hold none of them, and
nothing else is lost. -/
namespace SchemaLint.Text

variable {cut : Char → Bool}

theorem pieces_cons_cut {c : Char} (cuts : cut c = true) (text : List Char) :
    pieces cut (c :: text) = [] :: pieces cut text := by
  rw [pieces, cuts]

theorem pieces_cons_keep {c : Char} (keeps : cut c = false) {text piece : List Char}
    {found : List (List Char)} (rest : pieces cut text = piece :: found) :
    pieces cut (c :: text) = (c :: piece) :: found := by
  rw [pieces, keeps, rest]

theorem exists_pieces (cut : Char → Bool) (text : List Char) :
    ∃ piece found, pieces cut text = piece :: found :=
  List.exists_cons_of_ne_nil (pieces_ne_nil cut text)

theorem pieces_uncut {text : List Char} (keeps : ∀ c ∈ text, cut c = false) :
    pieces cut text = [text] := by
  induction text with
  | nil => rfl
  | cons c text ih =>
    have rest := ih fun d member => keeps d (List.mem_cons_of_mem _ member)
    exact pieces_cons_keep (keeps c List.mem_cons_self) rest

theorem first_piece_isPrefix {text piece : List Char} {found : List (List Char)}
    (cuts : pieces cut text = piece :: found) : piece <+: text := by
  induction text generalizing piece found with
  | nil =>
    cases cuts
    exact List.prefix_rfl
  | cons c text ih =>
    cases accepted : cut c with
    | true =>
      rw [pieces_cons_cut accepted] at cuts
      cases cuts
      exact List.nil_prefix
    | false =>
      obtain ⟨first, others, rest⟩ := exists_pieces cut text
      rw [pieces_cons_keep accepted rest] at cuts
      cases cuts
      exact List.cons_prefix_cons.mpr ⟨rfl, ih rest⟩

/-- A piece is made of characters of the text that are not cut at. -/
theorem of_mem_piece {text piece : List Char} (member : piece ∈ pieces cut text) {c : Char}
    (inside : c ∈ piece) : c ∈ text ∧ cut c = false := by
  induction text generalizing piece with
  | nil =>
    obtain rfl := List.mem_singleton.mp member
    cases inside
  | cons d text ih =>
    cases accepted : cut d with
    | true =>
      rw [pieces_cons_cut accepted] at member
      rcases List.mem_cons.mp member with rfl | later
      · cases inside
      · obtain ⟨present, keeps⟩ := ih later inside
        exact ⟨List.mem_cons_of_mem _ present, keeps⟩
    | false =>
      obtain ⟨first, others, rest⟩ := exists_pieces cut text
      rw [pieces_cons_keep accepted rest] at member
      rcases List.mem_cons.mp member with rfl | later
      · rcases List.mem_cons.mp inside with rfl | inside
        · exact ⟨List.mem_cons_self, accepted⟩
        · obtain ⟨present, keeps⟩ := ih (rest ▸ List.mem_cons_self) inside
          exact ⟨List.mem_cons_of_mem _ present, keeps⟩
      · obtain ⟨present, keeps⟩ := ih (rest ▸ List.mem_cons_of_mem _ later) inside
        exact ⟨List.mem_cons_of_mem _ present, keeps⟩

/-- A text holds nothing to cut at, or it is cut for the first time after such a
text. -/
@[elab_as_elim]
theorem cut_induction {motive : List Char → Prop}
    (uncut : ∀ text, (∀ c ∈ text, cut c = false) → motive text)
    (cuts : ∀ left c right, (∀ d ∈ left, cut d = false) → cut c = true → motive right →
      motive (left ++ c :: right)) (text : List Char) : motive text := by
  suffices all : ∀ left, (∀ c ∈ left, cut c = false) → motive (left ++ text) from
    all [] fun _ member => nomatch member
  induction text with
  | nil =>
    intro left keeps
    exact uncut _ (by simpa using keeps)
  | cons c text ih =>
    intro left keeps
    cases accepted : cut c with
    | true => exact cuts left c text keeps accepted (ih [] fun _ member => nomatch member)
    | false =>
      have longer : ∀ d ∈ left ++ [c], cut d = false := by
        intro d member
        rcases List.mem_append.mp member with before | here
        · exact keeps d before
        · obtain rfl := List.mem_singleton.mp here
          exact accepted
      simpa using ih (left ++ [c]) longer

theorem words_append_blank {c : Char} (blank : isBlank c = true) (left right : List Char) :
    words (left ++ c :: right) = words left ++ words right := by
  simp only [words, pieces_append_cons blank, List.filter_append]

theorem words_of_solid {word : List Char} (filled : word ≠ [])
    (solid : ∀ c ∈ word, isBlank c = false) : words word = [word] := by
  simp [words, pieces_uncut solid, filled]

end SchemaLint.Text
