import SchemaLint.Proofs.Text.Reading
import SchemaLint.Terminal.EscapeSequence

/-! What is left of a text without its escape sequences. A sequence can be read in
one way only and holds no line break, so sequences are dropped line by line, and a
text without an introducer takes no part in them. -/
namespace SchemaLint.Terminal
open Text

/-- An introducer, parameters, intermediates and one final character. -/
def IsSequence (text : List Char) : Prop :=
  ∃ parameters intermediates last,
    text = escape :: '[' :: (parameters ++ (intermediates ++ [last])) ∧
    (∀ c ∈ parameters, isParameter c = true) ∧ (∀ c ∈ intermediates, isIntermediate c = true) ∧
    isFinal last = true

/-- The second text is left of the first when every sequence is dropped, the first
one first. -/
inductive Stripped : List Char → List Char → Prop where
  | done : Stripped [] []
  | keep {c : Char} {text kept : List Char}
      (none_here : ∀ part, IsSequence part → ¬ part <+: c :: text) (rest : Stripped text kept) :
      Stripped (c :: text) (c :: kept)
  | drop {part text kept : List Char} (here : IsSequence part) (rest : Stripped text kept) :
      Stripped (part ++ text) kept

/-- A character belongs to one part of a sequence only. -/
theorem classes_apart (c : Char) :
    (isIntermediate c = true → isParameter c = false) ∧
      (isFinal c = true → isParameter c = false ∧ isIntermediate c = false) := by
  simp only [isParameter, isIntermediate, isFinal, Bool.and_eq_true, Bool.and_eq_false_iff,
    decide_eq_true_eq, decide_eq_false_iff_not]
  omega

theorem IsSequence.sequenceLength?_eq {part : List Char} (valid : IsSequence part)
    (rest : List Char) : sequenceLength? (part ++ rest) = some part.length := by
  obtain ⟨parameters, intermediates, last, rfl, first, second, final⟩ := valid
  have stop : ∀ c, (intermediates ++ last :: rest).head? = some c → isParameter c = false := by
    intro c head
    cases intermediates with
    | nil =>
      obtain rfl := Option.some.inj head
      exact ((classes_apart last).2 final).1
    | cons d intermediates =>
      obtain rfl := Option.some.inj head
      exact (classes_apart d).1 (second d List.mem_cons_self)
  have stop' : ∀ c, (last :: rest).head? = some c → isIntermediate c = false := by
    intro c head
    obtain rfl := Option.some.inj head
    exact ((classes_apart last).2 final).2
  simp [sequenceLength?, takeWhile_run first stop, dropWhile_run first stop,
    takeWhile_run second stop', dropWhile_run second stop', final, Nat.add_assoc]

theorem sequence_or_sequenceLength?_eq_none (text : List Char) :
    (∃ part rest, IsSequence part ∧ text = part ++ rest) ∨ sequenceLength? text = none := by
  fun_cases sequenceLength? text with
  | case1 text parameters left intermediates last rest stops final =>
    have split : text = parameters ++ (intermediates ++ last :: rest) := by
      rw [← stops, List.takeWhile_append_dropWhile, List.takeWhile_append_dropWhile]
    refine Or.inl ⟨escape :: '[' :: (parameters ++ (intermediates ++ [last])), rest,
      ⟨parameters, intermediates, last, rfl, ?_, ?_, final⟩, ?_⟩
    · exact fun c => List.mem_takeWhile_imp
    · exact fun c => List.mem_takeWhile_imp
    · simp [← split]
  | _ => exact Or.inr rfl

theorem sequenceLength?_eq_none_iff {text : List Char} :
    sequenceLength? text = none ↔ ∀ part, IsSequence part → ¬ part <+: text := by
  constructor
  · rintro absent part valid ⟨rest, rfl⟩
    cases absent.symm.trans (valid.sequenceLength?_eq rest)
  · intro nowhere
    refine (sequence_or_sequenceLength?_eq_none text).resolve_left ?_
    rintro ⟨part, rest, valid, rfl⟩
    exact nowhere part valid (List.prefix_append part rest)

section Strip

variable {c : Char} {text kept left : List Char}

theorem IsSequence.exists_cons (valid : IsSequence text) : ∃ rest, text = escape :: rest := by
  obtain ⟨parameters, intermediates, last, rfl, -⟩ := valid
  exact ⟨_, rfl⟩

theorem IsSequence.newline_not_mem (valid : IsSequence text) : '\n' ∉ text := by
  obtain ⟨parameters, intermediates, last, rfl, first, second, final⟩ := valid
  simp only [List.mem_cons, List.mem_append, List.not_mem_nil, or_false]
  rintro (same | same | member | member | rfl)
  · cases same
  · cases same
  · cases first _ member
  · cases second _ member
  · cases final

theorem sequenceLength?_of_ne (plain : c ≠ escape) (text : List Char) :
    sequenceLength? (c :: text) = none := by
  rw [sequenceLength?_eq_none_iff]
  rintro part valid ⟨rest, same⟩
  obtain ⟨more, rfl⟩ := valid.exists_cons
  exact plain (List.cons.inj same).1.symm

theorem stripEscapes_of_none (none_here : sequenceLength? (c :: text) = none) :
    stripEscapes (c :: text) = c :: stripEscapes text := by
  simp [stripEscapes, substitute, substituteFrom, none_here]

theorem stripEscapes_cons (plain : c ≠ escape) (text : List Char) :
    stripEscapes (c :: text) = c :: stripEscapes text :=
  stripEscapes_of_none (sequenceLength?_of_ne plain text)

theorem IsSequence.stripEscapes_append (valid : IsSequence text) (rest : List Char) :
    stripEscapes (text ++ rest) = stripEscapes rest := by
  have length := valid.sequenceLength?_eq rest
  obtain ⟨more, rfl⟩ := valid.exists_cons
  rw [List.cons_append] at length
  simp [stripEscapes, substitute, substituteFrom, length, substituteFrom_eq_drop _ more.length]

theorem stripped_stripEscapes (text : List Char) : Stripped text (stripEscapes text) := by
  rcases sequence_or_sequenceLength?_eq_none text with ⟨part, rest, valid, same⟩ | absent
  · have shorter : rest.length < text.length := by
      obtain ⟨more, rfl⟩ := valid.exists_cons
      simp only [same, List.length_append, List.length_cons]
      omega
    have later := stripped_stripEscapes rest
    rw [same, valid.stripEscapes_append]
    exact .drop valid later
  · cases text with
    | nil => exact .done
    | cons c text =>
      rw [stripEscapes_of_none absent]
      exact .keep (sequenceLength?_eq_none_iff.mp absent) (stripped_stripEscapes text)
termination_by text.length

theorem stripped_iff : Stripped text kept ↔ stripEscapes text = kept := by
  constructor
  · intro stripped
    induction stripped with
    | done => rfl
    | keep none_here _ ih =>
      rw [stripEscapes_of_none (sequenceLength?_eq_none_iff.mpr none_here), ih]
    | drop here _ ih => rw [here.stripEscapes_append, ih]
  · rintro rfl
    exact stripped_stripEscapes text

/-- No sequence reaches past the end of a line. -/
theorem Stripped.append_newline {rest more : List Char} (first : Stripped text kept)
    (second : Stripped rest more) : Stripped (text ++ '\n' :: rest) (kept ++ '\n' :: more) := by
  induction first with
  | done =>
    exact .keep (sequenceLength?_eq_none_iff.mp (sequenceLength?_of_ne (by decide) rest)) second
  | @keep c text kept none_here _ ih =>
    refine .keep ?_ ih
    rintro part valid ⟨after, same⟩
    have joined : part ++ after = (c :: text) ++ '\n' :: rest := same
    rcases List.append_eq_append_iff.mp joined with
      ⟨tail, inside, -⟩ | ⟨tail, across, ends⟩
    · exact none_here part valid ⟨tail, inside.symm⟩
    · cases tail with
      | nil => exact none_here part valid (by simp [across])
      | cons d tail =>
        obtain ⟨rfl, -⟩ := List.cons.inj ends
        exact valid.newline_not_mem (by simp [across])
  | drop here _ ih =>
    rw [List.append_assoc]
    exact .drop here ih

theorem stripEscapes_append_newline (text rest : List Char) :
    stripEscapes (text ++ '\n' :: rest) = stripEscapes text ++ '\n' :: stripEscapes rest :=
  stripped_iff.mp ((stripped_stripEscapes text).append_newline (stripped_stripEscapes rest))

theorem stripEscapes_append (plain : escape ∉ left) (right : List Char) :
    stripEscapes (left ++ right) = left ++ stripEscapes right := by
  induction left with
  | nil => rfl
  | cons c left ih =>
    rw [List.mem_cons, not_or] at plain
    obtain ⟨other, rest⟩ := plain
    rw [List.cons_append, stripEscapes_cons (Ne.symm other), ih rest, List.cons_append]

theorem stripEscapes_sublist (text : List Char) : (stripEscapes text).Sublist text := by
  have stripped := stripped_stripEscapes text
  generalize stripEscapes text = kept at stripped ⊢
  induction stripped with
  | done => exact .slnil
  | @keep c _ _ _ _ ih => exact ih.cons_cons c
  | @drop part _ _ _ _ ih => exact ih.trans (List.sublist_append_right part _)

end Strip

/-- The sequences that select a style are such sequences. -/
theorem isSequence_style (parameter : String)
    (numeric : ∀ c ∈ parameter.toList, isParameter c = true) :
    IsSequence (style parameter).toList :=
  ⟨parameter.toList, [], 'm', by simp [style], numeric, List.forall_mem_nil _, rfl⟩

end SchemaLint.Terminal
