import SchemaLint.Proofs.ScriptSplitting

/-! Splitting a script takes it apart without loss. Its statements hold all its
characters but blanks and terminators, in their order; every script is its
statements with blanks around them and blank segments between them, and every such
script splits into the statements it was made of. -/
namespace SchemaLint.Script
open Text Phrase

/-- The segments hold the texts in their order, each in a segment of its own with
blanks around it. The other segments are blank. -/
inductive Padded : List String → List String → Prop where
  | done : Padded [] []
  | skip {texts segments : List String} {segment : String} (blank : Blank segment.toList)
      (rest : Padded texts segments) : Padded texts (segment :: segments)
  | text {texts segments : List String} {before text after : String}
      (blankBefore : Blank before.toList) (blankAfter : Blank after.toList)
      (rest : Padded texts segments) :
      Padded (text :: texts) ((before ++ text ++ after) :: segments)

section Kept

theorem filter_blank {text : List Char} (blank : Blank text) : text.filter (!isBlank ·) = [] := by
  simpa [Blank, List.filter_eq_nil_iff] using blank

theorem filter_trim (text : List Char) :
    (trim text).filter (!isBlank ·) = text.filter (!isBlank ·) := by
  obtain ⟨before, after, blankBefore, blankAfter, same⟩ := exists_trim text
  conv_rhs => rw [same]
  simp [filter_blank blankBefore, filter_blank blankAfter]

theorem filter_unbroken {text : List Char} (unbroken : terminator ∉ text) :
    text.filter (fun c => !isBlank c && c != terminator) = text.filter (!isBlank ·) := by
  apply List.filter_congr
  intro c member
  have other : c ≠ terminator := fun same => unbroken (same ▸ member)
  simp [other]

theorem flatten_segments_unbroken {text : List Char} (unbroken : terminator ∉ text) :
    (segments text).flatten = trim text := by
  rw [segments_unbroken unbroken]
  split
  · rename_i empty
    simp [empty]
  · simp

/-- No other character is lost, and none changes its place. -/
theorem filter_flatten_segments (text : List Char) :
    (segments text).flatten.filter (!isBlank ·) =
      text.filter fun c => !isBlank c && c != terminator := by
  induction text using segment_induction with
  | single text unbroken =>
    rw [flatten_segments_unbroken unbroken, filter_trim, filter_unbroken unbroken]
  | more left right unbroken ih =>
    rw [segments_append_terminator, List.flatten_append, List.filter_append, ih,
      flatten_segments_unbroken unbroken, filter_trim, ← filter_unbroken unbroken]
    simp

end Kept

section Joined

theorem statements_intercalate (segments : List String) :
    statements ("/".intercalate segments) = segments.flatMap statements := by
  induction segments with
  | nil => rfl
  | cons segment segments ih =>
    cases segments with
    | nil => simp
    | cons next segments =>
      simp [String.intercalate_cons_cons, statements_append_terminator, ih]

theorem statements_blank {segment : String} (blank : Blank segment.toList) :
    statements segment = [] := by
  simp [statements_eq, segments_unbroken (terminator_not_mem_of_blank blank),
    trim_eq_nil_iff.mpr blank]

theorem statements_pad {before text after : String} (blankBefore : Blank before.toList)
    (blankAfter : Blank after.toList) (alone : Standalone text.toList) :
    statements (before ++ text ++ after) = [text] := by
  rw [Script.statements_eq, String.toList_append, String.toList_append,
    segments_pad blankBefore blankAfter alone.unbroken, segments_standalone alone]
  simp

theorem Padded.statements_eq {texts segments : List String} (padded : Padded texts segments)
    (alone : ∀ text ∈ texts, Standalone text.toList) :
    statements ("/".intercalate segments) = texts := by
  rw [statements_intercalate]
  induction padded with
  | done => rfl
  | skip blank _ ih => simp [statements_blank blank, ih alone]
  | text blankBefore blankAfter _ ih =>
    obtain ⟨first, others⟩ := List.forall_mem_cons.mp alone
    simp [statements_pad blankBefore blankAfter first, ih others]

/-- A segment is blank, or it is a statement with blanks around it. -/
theorem padded_segment {text : List Char} (unbroken : terminator ∉ text)
    {texts segments : List String} (rest : Padded texts segments) :
    Padded ((Script.segments text).map String.ofList ++ texts)
      (String.ofList text :: segments) := by
  rw [segments_unbroken unbroken]
  split
  · rename_i empty
    exact .skip (by simpa using trim_eq_nil_iff.mp empty) rest
  · obtain ⟨before, after, blankBefore, blankAfter, same⟩ := exists_trim text
    have around : String.ofList text =
        String.ofList before ++ String.ofList (trim text) ++ String.ofList after := by
      conv_lhs => rw [same]
      simp only [String.ofList_append]
    rw [around]
    exact .text (by simpa using blankBefore) (by simpa using blankAfter) rest

theorem exists_padded (text : List Char) :
    ∃ segment segments, Padded ((Script.segments text).map String.ofList) (segment :: segments) ∧
      String.ofList text = "/".intercalate (segment :: segments) := by
  induction text using segment_induction with
  | single text unbroken =>
    exact ⟨String.ofList text, [], by simpa using padded_segment unbroken .done, by simp⟩
  | more left right unbroken ih =>
    obtain ⟨segment, segments, padded, same⟩ := ih
    refine ⟨String.ofList left, segment :: segments, ?_, ?_⟩
    · simpa [segments_append_terminator] using padded_segment unbroken padded
    · rw [String.intercalate_cons_cons, ← same]
      simp [terminator, String.append_assoc]

end Joined

/-- What splitting keeps, and how it is undone. -/
theorem statements_decomposition :
    (∀ script, (∀ text ∈ statements script, Standalone text.toList) ∧
      ((statements script).flatMap String.toList).filter (!isBlank ·) =
        script.toList.filter (fun c => !isBlank c && c != terminator) ∧
      ∃ segments, Padded (statements script) segments ∧ script = "/".intercalate segments) ∧
    (∀ first second, statements (first ++ "/" ++ second) = statements first ++ statements second) ∧
    ∀ texts segments, (∀ text ∈ texts, Standalone text.toList) → Padded texts segments →
      statements ("/".intercalate segments) = texts := by
  refine ⟨fun script => ⟨?_, ?_, ?_⟩, statements_append_terminator, ?_⟩
  · intro text member
    obtain ⟨segment, present, rfl⟩ := List.mem_map.mp member
    simpa using standalone_of_mem_segments present
  · have joined : (statements script).flatMap String.toList = (segments script.toList).flatten := by
      simp [statements_eq, List.flatMap_map]
    rw [joined, filter_flatten_segments]
  · obtain ⟨segment, segments, padded, same⟩ := exists_padded script.toList
    exact ⟨segment :: segments, padded, by simpa using same⟩
  · intro texts segments alone padded
    exact padded.statements_eq alone

theorem statements_decomposition_spaced :
    (∀ text ∈ ["A", "B C"], Standalone text.toList) ∧
    Padded ["A", "B C"] [" \n", "\tA\r\n", "", "B C\u00A0"] ∧
    statements ("/".intercalate [" \n", "\tA\r\n", "", "B C\u00A0"]) = ["A", "B C"] := by
  have alone : ∀ text ∈ ["A", "B C"], Standalone text.toList := by decide +kernel
  have spaces : Blank " \n".toList := forall_mem_of_all rfl
  have tab : Blank "\t".toList := forall_mem_of_all rfl
  have lineEnd : Blank "\r\n".toList := forall_mem_of_all rfl
  have nothing : Blank "".toList := blank_nil
  have unbreakable : Blank "\u00A0".toList := forall_mem_of_all rfl
  have padded : Padded ["A", "B C"] [" \n", "\tA\r\n", "", "B C\u00A0"] :=
    .skip spaces (.text tab lineEnd (.skip nothing (.text nothing unbreakable .done)))
  exact ⟨alone, padded, statements_decomposition.2.2 _ _ alone padded⟩

end SchemaLint.Script
