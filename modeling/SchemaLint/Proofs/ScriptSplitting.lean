import SchemaLint.Proofs.PhraseSearch
import SchemaLint.Proofs.Text.OneLine
import SchemaLint.Script

/-! The statements of a script. Scripts that meet at a terminator keep their own
statements, blanks and terminators around a script add none, and statements that
are joined come apart again. -/
namespace SchemaLint.Script
open Text Phrase

def ends (c : Char) : Bool := c == terminator

/-- The statements of a script as lists of characters. -/
def segments (text : List Char) : List (List Char) :=
  ((pieces ends text).map trim).filter fun piece => !piece.isEmpty

theorem statements_eq (script : String) :
    statements script = (segments script.toList).map String.ofList := rfl

/-- A text that stands in a script as one statement, as it is. -/
structure Standalone (text : List Char) : Prop where
  filled : text ≠ []
  trimmed : Trimmed text
  unbroken : terminator ∉ text

theorem standalone_iff {text : List Char} :
    Standalone text ↔ text ≠ [] ∧ Trimmed text ∧ terminator ∉ text :=
  ⟨fun alone => ⟨alone.filled, alone.trimmed, alone.unbroken⟩,
    fun ⟨filled, trimmed, unbroken⟩ => ⟨filled, trimmed, unbroken⟩⟩

instance (text : List Char) : Decidable (Standalone text) :=
  decidable_of_iff _ standalone_iff.symm

theorem not_ends_iff {text : List Char} : (∀ c ∈ text, ends c = false) ↔ terminator ∉ text := by
  constructor
  · intro keeps member
    have kept := keeps terminator member
    cases kept
  · intro unbroken c member
    have other : c ≠ terminator := by
      rintro rfl
      exact unbroken member
    simp [ends, other]

/-- A script is a single segment, or a segment with a script after its
terminator. -/
@[elab_as_elim]
theorem segment_induction {motive : List Char → Prop}
    (single : ∀ text, terminator ∉ text → motive text)
    (more : ∀ left right, terminator ∉ left → motive right → motive (left ++ terminator :: right))
    (text : List Char) : motive text := by
  refine cut_induction (fun text keeps => single text (not_ends_iff.mp keeps)) ?_ text
  intro left c right keeps cuts rest
  obtain rfl : c = terminator := by simpa [ends] using cuts
  exact more left right (not_ends_iff.mp keeps) rest

theorem standalone_of_mem_segments {text segment : List Char} (member : segment ∈ segments text) :
    Standalone segment := by
  obtain ⟨mapped, filled⟩ := List.mem_filter.mp member
  obtain ⟨piece, found, rfl⟩ := List.mem_map.mp mapped
  refine ⟨by simpa using filled, trimmed_trim piece, not_ends_iff.mp ?_⟩
  intro c inside
  exact (of_mem_piece found (trim_subset piece inside)).2

@[simp] theorem segments_nil : segments [] = [] := rfl

theorem segments_append_terminator (left right : List Char) :
    segments (left ++ terminator :: right) = segments left ++ segments right := by
  have cuts : ends terminator = true := rfl
  simp only [segments, pieces_append_cons cuts, List.map_append, List.filter_append]

theorem statements_append_terminator (first second : String) :
    statements (first ++ "/" ++ second) = statements first ++ statements second := by
  simp only [statements_eq, String.toList_append, List.append_assoc, ← List.map_append]
  exact congrArg _ (segments_append_terminator _ _)

theorem segments_unbroken {text : List Char} (unbroken : terminator ∉ text) :
    segments text = if trim text = [] then [] else [trim text] := by
  rw [segments, pieces_uncut (not_ends_iff.mpr unbroken)]
  by_cases empty : trim text = [] <;> simp [empty]

theorem terminator_not_mem_of_blank {text : List Char} (blank : Blank text) :
    terminator ∉ text := by
  intro member
  have found := blank terminator member
  cases found

/-- A segment is taken without the blanks around it. -/
theorem segments_pad {before text after : List Char} (blankBefore : Blank before)
    (blankAfter : Blank after) (unbroken : terminator ∉ text) :
    segments (before ++ text ++ after) = segments text := by
  have padded : terminator ∉ before ++ text ++ after := by
    simp only [List.mem_append, not_or]
    exact ⟨⟨terminator_not_mem_of_blank blankBefore, unbroken⟩,
      terminator_not_mem_of_blank blankAfter⟩
  rw [segments_unbroken padded, segments_unbroken unbroken, trim_pad blankBefore blankAfter]

theorem segments_standalone {text : List Char} (alone : Standalone text) :
    segments text = [text] := by
  rw [segments_unbroken alone.unbroken, trim_eq_self alone.trimmed, if_neg alone.filled]

theorem segments_gap_cons {c : Char} (gap : IsGap c) (text : List Char) :
    segments (c :: text) = segments text := by
  rcases gap with blank | rfl
  · have one := blank_singleton blank
    induction text using segment_induction with
    | single text unbroken => simpa using segments_pad one blank_nil unbroken
    | more left right unbroken _ =>
      have first : segments (c :: left) = segments left := by
        simpa using segments_pad one blank_nil unbroken
      rw [← List.cons_append, segments_append_terminator, segments_append_terminator, first]
  · exact segments_append_terminator [] text

theorem segments_append_gap {c : Char} (gap : IsGap c) (text : List Char) :
    segments (text ++ [c]) = segments text := by
  rcases gap with blank | rfl
  · have one := blank_singleton blank
    induction text using segment_induction with
    | single text unbroken => simpa using segments_pad blank_nil one unbroken
    | more left right _ ih =>
      rw [List.append_assoc, List.cons_append, segments_append_terminator,
        segments_append_terminator, ih]
  · rw [segments_append_terminator, segments_nil, List.append_nil]

/-- Gaps around a script hold no statement. -/
theorem segments_gaps {before after : List Char} (gapsBefore : ∀ c ∈ before, IsGap c)
    (gapsAfter : ∀ c ∈ after, IsGap c) (text : List Char) :
    segments (before ++ text ++ after) = segments text := by
  have start : segments (before ++ text) = segments text := by
    induction before with
    | nil => rfl
    | cons c before ih =>
      rw [List.cons_append, segments_gap_cons (gapsBefore c List.mem_cons_self),
        ih fun d member => gapsBefore d (List.mem_cons_of_mem _ member)]
  rw [← start]
  generalize before ++ text = script
  induction after generalizing script with
  | nil => rw [List.append_nil]
  | cons c after ih =>
    have rest := ih (fun d member => gapsAfter d (List.mem_cons_of_mem _ member)) (script ++ [c])
    rw [List.append_assoc, List.singleton_append] at rest
    rw [rest, segments_append_gap (gapsAfter c List.mem_cons_self)]

/-- A script can be put on one line before or after it is split. -/
theorem segments_onOneLine (text : List Char) :
    segments (onOneLine text) = (segments text).map onOneLine := by
  have keeps : ∀ c, isBlank c = true → ends c = false := by
    intro c blank
    by_contra cuts
    obtain rfl : c = terminator := by simpa [ends] using cuts
    cases blank
  rw [segments, pieces_onOneLine keeps, segments, List.map_map, List.filter_map, List.filter_map,
    List.map_map]
  have trims : trim ∘ onOneLine = onOneLine ∘ trim := funext trim_onOneLine
  have same : ∀ piece, (onOneLine piece).isEmpty = piece.isEmpty := by
    intro piece
    rw [Bool.eq_iff_iff, List.isEmpty_iff, List.isEmpty_iff, onOneLine_eq_nil_iff]
  simp only [trims, Function.comp_def, same]

end SchemaLint.Script
