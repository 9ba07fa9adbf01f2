import Mathlib.Data.List.TakeWhile
import SchemaLint.Text.Blank

/-! Trimming takes away exactly the blanks at the two ends of a text. -/
namespace SchemaLint.Text

def Blank (text : List Char) : Prop := ∀ c ∈ text, isBlank c = true

/-- The text does not begin with a blank. -/
def SolidFirst (text : List Char) : Prop := ∀ c, text.head? = some c → isBlank c = false

/-- The text neither begins nor ends with a blank. -/
structure Trimmed (text : List Char) : Prop where
  first : ∀ c, text.head? = some c → isBlank c = false
  last : ∀ c, text.getLast? = some c → isBlank c = false

theorem blank_nil : Blank [] := by
  intro c member
  cases member

theorem blank_singleton {c : Char} (blank : isBlank c = true) : Blank [c] := by
  intro d member
  obtain rfl := List.mem_singleton.mp member
  exact blank

theorem Blank.append {left right : List Char} (first : Blank left) (second : Blank right) :
    Blank (left ++ right) := by
  intro c member
  rcases List.mem_append.mp member with before | after
  · exact first c before
  · exact second c after

theorem Blank.reverse {text : List Char} (blank : Blank text) : Blank text.reverse :=
  fun c member => blank c (List.mem_reverse.mp member)

theorem exists_blank_head {run : List Char} (blanks : run ≠ [] ∧ Blank run) (rest : List Char) :
    ∃ b more, run ++ rest = b :: more ∧ isBlank b = true := by
  obtain ⟨b, run, rfl⟩ := List.exists_cons_of_ne_nil blanks.1
  exact ⟨b, run ++ rest, rfl, blanks.2 b List.mem_cons_self⟩

theorem blank_takeWhile (text : List Char) : Blank (text.takeWhile isBlank) :=
  fun _ member => List.mem_takeWhile_imp member

theorem trimStart_append {before : List Char} (blank : Blank before) (text : List Char) :
    trimStart (before ++ text) = trimStart text :=
  List.dropWhile_append_of_pos blank

theorem trimStart_eq_self {text : List Char} (first : SolidFirst text) :
    trimStart text = text := by
  cases text with
  | nil => rfl
  | cons c rest => simp [trimStart, first c rfl]

theorem trimStart_eq_nil_iff {text : List Char} : trimStart text = [] ↔ Blank text := by
  simp [trimStart, Blank, List.dropWhile_eq_nil_iff]

/-- What is left after the blanks at the start goes on into the text that
follows. -/
theorem trimStart_append_of_ne_nil {text : List Char} (left : trimStart text ≠ [])
    (rest : List Char) : trimStart (text ++ rest) = trimStart text ++ rest := by
  simp only [trimStart, List.dropWhile_append]
  rw [if_neg]
  simpa [trimStart] using left

theorem trimEnd_append {after : List Char} (blank : Blank after) (text : List Char) :
    trimEnd (text ++ after) = trimEnd text := by
  simp only [trimEnd, List.reverse_append]
  rw [List.dropWhile_append_of_pos blank.reverse]

theorem trimEnd_append_of_ne_nil {text : List Char} (filled : trimEnd text ≠ [])
    (front : List Char) : trimEnd (front ++ text) = front ++ trimEnd text := by
  have left : text.reverse.dropWhile isBlank ≠ [] := by simpa [trimEnd] using filled
  rw [trimEnd, List.reverse_append, List.dropWhile_append, if_neg (by simpa using left),
    List.reverse_append, List.reverse_reverse, ← trimEnd]

theorem trimEnd_eq_self {text : List Char}
    (last : ∀ c, text.getLast? = some c → isBlank c = false) : trimEnd text = text := by
  have same : trimStart text.reverse = text.reverse :=
    trimStart_eq_self (by simpa [SolidFirst] using last)
  rw [trimEnd, ← trimStart, same, List.reverse_reverse]

theorem exists_trimEnd (text : List Char) :
    ∃ after, Blank after ∧ text = trimEnd text ++ after := by
  refine ⟨(text.reverse.takeWhile isBlank).reverse, (blank_takeWhile _).reverse, ?_⟩
  rw [trimEnd, ← List.reverse_append, List.takeWhile_append_dropWhile, List.reverse_reverse]

/-- The blanks that trimming takes away. -/
theorem exists_trim (text : List Char) :
    ∃ before after, Blank before ∧ Blank after ∧ text = before ++ trim text ++ after := by
  obtain ⟨after, blank, ending⟩ := exists_trimEnd (trimStart text)
  refine ⟨text.takeWhile isBlank, after, blank_takeWhile text, blank, ?_⟩
  rw [List.append_assoc, trim, ← ending, trimStart, List.takeWhile_append_dropWhile]

theorem trim_pad {before after : List Char} (blankBefore : Blank before)
    (blankAfter : Blank after) (text : List Char) : trim (before ++ text ++ after) = trim text := by
  rw [trim, List.append_assoc, trimStart_append blankBefore, trim]
  by_cases left : trimStart text = []
  · have blank : Blank (text ++ after) := (trimStart_eq_nil_iff.mp left).append blankAfter
    rw [left, trimStart_eq_nil_iff.mpr blank]
  · rw [trimStart_append_of_ne_nil left, trimEnd_append blankAfter]

theorem trim_eq_self {text : List Char} (trimmed : Trimmed text) : trim text = text := by
  rw [trim, trimStart_eq_self trimmed.first, trimEnd_eq_self trimmed.last]

theorem trim_eq_nil_iff {text : List Char} : trim text = [] ↔ Blank text := by
  constructor
  · intro empty
    obtain ⟨before, after, blankBefore, blankAfter, same⟩ := exists_trim text
    rw [empty, List.append_nil] at same
    exact same ▸ blankBefore.append blankAfter
  · intro blank
    rw [trim, trimStart_eq_nil_iff.mpr blank]
    rfl

theorem trim_subset (text : List Char) : trim text ⊆ text := by
  obtain ⟨before, after, -, -, same⟩ := exists_trim text
  intro c member
  rw [same]
  exact List.mem_append_left _ (List.mem_append_right _ member)

theorem solidFirst_trimStart (text : List Char) : SolidFirst (trimStart text) := by
  intro c head
  have stops := List.head?_dropWhile_not isBlank text
  rw [← trimStart, head] at stops
  simpa using stops

theorem trimmed_trim (text : List Char) : Trimmed (trim text) := by
  refine ⟨?_, ?_⟩
  · intro c head
    -- what begins the trimmed text also begins the text trimmed at its start alone
    obtain ⟨after, -, ending⟩ := exists_trimEnd (trimStart text)
    have whole : (trimStart text).head? = some c := by
      rw [ending, List.head?_append, ← trim, head]
      rfl
    exact solidFirst_trimStart text c whole
  · intro c last
    rw [trim, trimEnd, List.getLast?_reverse] at last
    exact solidFirst_trimStart _ c last

/-- What neither begins nor ends with a blank stays at the start of a text. -/
theorem prefix_trim {front : List Char} (trimmed : Trimmed front) (more : List Char) :
    front <+: trim (front ++ more) := by
  cases front with
  | nil => exact List.nil_prefix
  | cons c front =>
    have solid : SolidFirst (c :: front ++ more) := trimmed.first
    by_cases rest : trimEnd more = []
    · obtain ⟨after, blank, same⟩ := exists_trimEnd more
      rw [rest, List.nil_append] at same
      have kept : trim (c :: front ++ more) = c :: front := by
        rw [trim, trimStart_eq_self solid, same, trimEnd_append blank, trimEnd_eq_self trimmed.last]
      exact kept.symm ▸ List.prefix_rfl
    · rw [trim, trimStart_eq_self solid, trimEnd_append_of_ne_nil rest]
      exact List.prefix_append _ _

theorem trimmed_iff {text : List Char} : Trimmed text ↔ trim text = text :=
  ⟨trim_eq_self, fun same => same ▸ trimmed_trim text⟩

instance (text : List Char) : Decidable (Trimmed text) := decidable_of_iff _ trimmed_iff.symm

end SchemaLint.Text
