import SchemaLint.Proofs.Text.Replacing
import SchemaLint.Proofs.Text.Respacing

/-! Texts with the same words. They differ in their blanks alone, and what is cut
out of them, put into them or looked for in them by the word cannot tell them
apart. -/
namespace SchemaLint.Text

/-- Each maximal run of blanks of the first text stands for a run of the second,
and all other characters are the same. -/
abbrev Reflowed (left right : List Char) : Prop := Relaid (· = ·) left right

/-- The texts have the same words up to blanks at the end. -/
def ReflowedFront (left right : List Char) : Prop :=
  ∃ front otherFront gap otherGap, Reflowed front otherFront ∧ Blank gap ∧ Blank otherGap ∧
    left = front ++ gap ∧ right = otherFront ++ otherGap

theorem sameLetter_of_eq {c d : Char} (same : c = d) : sameLetter c d = true :=
  same ▸ sameLetter_refl c

section Words

variable {left right word : List Char}

theorem Reflowed.symm (reflowed : Reflowed left right) : Reflowed right left := by
  suffices whole : ∀ {before left right}, Respaced (· = ·) (fun _ _ => False) before left right →
      Reflowed right left from whole reflowed
  intro before left right respaced
  induction respaced with
  | done => exact .done
  | char solid same _ ih =>
    subst same
    exact ih.char solid rfl
  | gap blanks others _ _ _ ih => exact ih.pad others blanks

/-- A word at the start of a text is at the start of the other. -/
theorem Reflowed.exists_rest {rest : List Char} (solid : ∀ c ∈ word, isBlank c = false)
    (reflowed : Reflowed (word ++ rest) right) :
    ∃ other, right = word ++ other ∧ Reflowed rest other := by
  induction word generalizing right with
  | nil => exact ⟨right, rfl, reflowed⟩
  | cons c word ih =>
    have first := solid c List.mem_cons_self
    generalize shape : c :: word ++ rest = text at reflowed
    cases reflowed with
    | done => cases shape
    | char _ same later =>
      obtain ⟨rfl, rfl⟩ := List.cons.inj shape
      obtain rfl := same
      obtain ⟨other, rfl, reflowed⟩ :=
        ih (fun d member => solid d (List.mem_cons_of_mem _ member)) later.relaid
      exact ⟨other, rfl, reflowed⟩
    | gap blanks =>
      obtain ⟨b, more, filled, blank⟩ := exists_blank_head blanks _
      rw [filled] at shape
      rw [(List.cons.inj shape).1, blank] at first
      cases first

theorem Reflowed.exists_rest_char {c : Char} {rest : List Char} (solid : isBlank c = false)
    (reflowed : Reflowed (c :: rest) right) : ∃ other, right = c :: other ∧ Reflowed rest other := by
  have word : ∀ d ∈ [c], isBlank d = false := fun d member => List.mem_singleton.mp member ▸ solid
  exact Reflowed.exists_rest word reflowed

theorem Reflowed.eq_of_solid (reflowed : Reflowed left right)
    (solid : ∀ c ∈ left, isBlank c = false) : left = right := by
  rw [← List.append_nil left] at reflowed
  obtain ⟨other, rfl, empty⟩ := reflowed.exists_rest solid
  generalize shape : ([] : List Char) = rest at empty
  cases empty with
  | done => rw [List.append_nil]
  | char => cases shape
  | gap blanks => exact absurd (List.append_eq_nil_iff.mp shape.symm).1 blanks.1

theorem Reflowed.isPrefix (reflowed : Reflowed left right) (solid : ∀ c ∈ word, isBlank c = false)
    (begins : word <+: left) : word <+: right := by
  obtain ⟨rest, rfl⟩ := begins
  obtain ⟨other, rfl, -⟩ := reflowed.exists_rest solid
  exact List.prefix_append word other

/-- A word occurs in both texts or in neither. -/
theorem Reflowed.occursIn_eq (reflowed : Reflowed left right)
    (solid : ∀ c ∈ word, isBlank c = false) : occursIn word left = occursIn word right := by
  cases word with
  | nil => cases left <;> cases right <;> rfl
  | cons p word =>
    refine reflowed.anySuffix ?_ ?_
    · intro b text blank
      rw [Bool.eq_false_iff, ne_eq, List.isPrefixOf_iff_prefix, List.cons_prefix_cons]
      rintro ⟨rfl, -⟩
      cases blank.symm.trans (solid p List.mem_cons_self)
    · intro before left right respaced
      have reflowed : Reflowed left right := respaced.relaid
      rw [Bool.eq_iff_iff, List.isPrefixOf_iff_prefix, List.isPrefixOf_iff_prefix]
      exact ⟨reflowed.isPrefix solid, reflowed.symm.isPrefix solid⟩

end Words

section Trimming

variable {left right : List Char}

theorem trimEnd_cons {c : Char} (solid : isBlank c = false) (text : List Char) :
    trimEnd (c :: text) = c :: trimEnd text := by
  by_cases filled : trimEnd text = []
  · obtain ⟨after, blank, same⟩ := exists_trimEnd text
    rw [filled, List.nil_append] at same
    rw [filled, ← List.singleton_append, same, trimEnd_append blank]
    exact trimEnd_eq_self fun d last => Option.some.inj last ▸ solid
  · exact trimEnd_append_of_ne_nil filled [c]

/-- Blanks before a text stay, unless nothing else does. -/
theorem trimEnd_blanks {run : List Char} (blank : Blank run) (text : List Char) :
    trimEnd (run ++ text) = if trimEnd text = [] then [] else run ++ trimEnd text := by
  split
  · rename_i empty
    obtain ⟨after, rest, same⟩ := exists_trimEnd text
    rw [empty, List.nil_append] at same
    exact trimEnd_append (blank.append (same ▸ rest)) []
  · rename_i filled
    exact trimEnd_append_of_ne_nil filled run

theorem Reflowed.eq_nil_iff (reflowed : Reflowed left right) : left = [] ↔ right = [] := by
  cases reflowed with
  | done => exact Iff.rfl
  | char => simp
  | gap blanks others => simp [blanks.1, others.1]

theorem Reflowed.trimEnd (reflowed : Reflowed left right) :
    Reflowed (trimEnd left) (trimEnd right) := by
  suffices whole : ∀ {before left right}, Respaced (· = ·) (fun _ _ => False) before left right →
      Reflowed (Text.trimEnd left) (Text.trimEnd right) from whole reflowed
  intro before left right respaced
  induction respaced with
  | done => exact .done
  | char solid same _ ih =>
    subst same
    rw [trimEnd_cons solid, trimEnd_cons solid]
    exact ih.char solid rfl
  | @gap _ _ _ left _ blanks others _ _ _ ih =>
    rw [trimEnd_blanks blanks.2, trimEnd_blanks others.2]
    by_cases empty : Text.trimEnd left = []
    · rw [if_pos empty, if_pos (ih.eq_nil_iff.mp empty)]
      exact .done
    · rw [if_neg empty, if_neg (mt ih.eq_nil_iff.mpr empty)]
      exact ih.pad blanks others

theorem Reflowed.trim (reflowed : Reflowed left right) : Reflowed (trim left) (trim right) := by
  obtain ⟨place, respaced⟩ := Respaced.trimStart sameLetter_of_eq reflowed
  have start : Reflowed (trimStart left) (trimStart right) := respaced.relaid
  exact start.trimEnd

theorem reflowedFront_of_blank (blank : Blank left) (otherBlank : Blank right) :
    ReflowedFront left right :=
  ⟨[], [], left, right, .done, blank, otherBlank, rfl, rfl⟩

theorem Reflowed.front (reflowed : Reflowed left right) : ReflowedFront left right :=
  ⟨left, right, [], [], reflowed, blank_nil, blank_nil, (List.append_nil _).symm,
    (List.append_nil _).symm⟩

theorem ReflowedFront.prepend {front otherFront : List Char} (rest : ReflowedFront left right)
    (reflowed : Reflowed front otherFront) :
    ReflowedFront (front ++ left) (otherFront ++ right) := by
  obtain ⟨first, otherFirst, gap, otherGap, firsts, blank, otherBlank, rfl, rfl⟩ := rest
  refine ⟨front ++ first, otherFront ++ otherFirst, gap, otherGap, reflowed.append firsts, blank,
    otherBlank, ?_, ?_⟩
  · rw [List.append_assoc]
  · rw [List.append_assoc]

theorem ReflowedFront.trim (reflowed : ReflowedFront left right) :
    Reflowed (trim left) (trim right) := by
  obtain ⟨front, otherFront, gap, otherGap, reflowed, blank, otherBlank, rfl, rfl⟩ := reflowed
  have trimmed := trim_pad blank_nil blank front
  have otherTrimmed := trim_pad blank_nil otherBlank otherFront
  rw [List.nil_append] at trimmed otherTrimmed
  rw [trimmed, otherTrimmed]
  exact reflowed.trim

end Trimming

section Replacing

variable {old new other left right : List Char}

/-- What is put in may be laid out in either way. -/
theorem Reflowed.replaceFirst_left (reflowed : Reflowed new other) (old text : List Char) :
    Reflowed (replaceFirst old new text) (replaceFirst old other text) := by
  induction text with
  | nil =>
    rw [replaceFirst, replaceFirst]
    cases readExact old [] with
    | none => exact .done
    | some rest => exact reflowed.append (relaid_refl rest)
  | cons c text ih =>
    rw [replaceFirst, replaceFirst]
    cases readExact old (c :: text) with
    | some rest => exact reflowed.append (relaid_refl rest)
    | none => exact (relaid_refl [c]).append ih

theorem Reflowed.readExact (reflowed : Reflowed left right)
    (solid : ∀ c ∈ old, isBlank c = false) :
    Option.Rel Reflowed (readExact old left) (readExact old right) := by
  cases found : Text.readExact old left with
  | some rest =>
    obtain rfl := readExact_eq_some_iff.mp found
    obtain ⟨other, rfl, rests⟩ := reflowed.exists_rest solid
    rw [readExact_eq_some_iff.mpr rfl]
    exact .some rests
  | none =>
    cases otherFound : Text.readExact old right with
    | none => exact .none
    | some other =>
      obtain rfl := readExact_eq_some_iff.mp otherFound
      obtain ⟨rest, rfl, -⟩ := reflowed.symm.exists_rest solid
      rw [readExact_eq_some_iff.mpr rfl] at found
      cases found

theorem Reflowed.replaceFirst_right {p : Char} (reflowed : Reflowed left right)
    (solid : ∀ c ∈ p :: old, isBlank c = false) (new : List Char) :
    Reflowed (replaceFirst (p :: old) new left) (replaceFirst (p :: old) new right) := by
  have absent : ∀ {run : List Char}, Blank run → p ∉ run := by
    intro run blank member
    cases (blank p member).symm.trans (solid p List.mem_cons_self)
  suffices whole : ∀ {before left right}, Respaced (· = ·) (fun _ _ => False) before left right →
      Reflowed (replaceFirst (p :: old) new left) (replaceFirst (p :: old) new right) from
    whole reflowed
  intro before left right respaced
  induction respaced with
  | done => exact relaid_refl _
  | @char before left right c d first same rest ih =>
    have reflowed : Reflowed (c :: left) (d :: right) := (Respaced.char first same rest).relaid
    have here := reflowed.readExact solid
    rw [replaceFirst, replaceFirst]
    generalize Text.readExact (p :: old) (c :: left) = found,
      Text.readExact (p :: old) (d :: right) = otherFound at here ⊢
    cases here with
    | some rests => exact (relaid_refl new).append rests
    | none => exact ih.char first same
  | gap blanks others _ _ _ ih =>
    rw [replaceFirst_append (absent blanks.2), replaceFirst_append (absent others.2)]
    exact ih.pad blanks others

end Replacing
end SchemaLint.Text
