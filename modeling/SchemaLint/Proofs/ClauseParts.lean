import SchemaLint.Constraint.Clause
import SchemaLint.Proofs.Text.Reading
import SchemaLint.Statement

/-! What a constraint clause is made of. A text holds a clause when it can be cut
into the parts of one; of all such cuts the search takes the one that begins
first, and then those parts that come first are as long as they can be. -/
namespace SchemaLint.Clause
open Text

/-- A character that can stand in the column of a clause. -/
def columnChar : ConstraintKind → Char → Bool
  | .check, c | .notNull, c => !isBlank c
  | .foreignKey, c | .primaryKey, c | .uniqueKey, c => isColumnChar c

/-- How a text goes on after the column of a clause. -/
def Ends (kind : ConstraintKind) (after : List Char) : Prop :=
  match kind with
  | .check | .notNull => ∃ gap rest, gap ≠ [] ∧ Blank gap ∧ after = gap ++ rest
  | .primaryKey | .uniqueKey => ∀ c, after.head? = some c → isColumnChar c = false
  | .foreignKey => ∃ gap between references rest, Blank gap ∧
      Spells "REFERENCES".toList references ∧
      after = gap ++ ')' :: (between ++ (references ++ rest))

/-- The text after the opening parenthesis, cut at the column. -/
structure ColumnParts where
  skipped : List Char
  gap : List Char
  column : List Char
  after : List Char

namespace ColumnParts

def text (parts : ColumnParts) : List Char :=
  parts.skipped ++ (parts.gap ++ (parts.column ++ parts.after))

/-- Only the columns of a foreign key are passed over, up to a comma. -/
structure Fits (kind : ConstraintKind) (parts : ColumnParts) : Prop where
  skipped : parts.skipped = [] ∨ kind = .foreignKey ∧ parts.skipped.getLast? = some ','
  gap : Blank parts.gap
  filled : parts.column ≠ []
  column : ∀ c ∈ parts.column, columnChar kind c = true
  ends : Ends kind parts.after

end ColumnParts

/-- The name begins as the kind demands. -/
def Named (kind : ConstraintKind) (name : List Char) : Prop :=
  ∃ start rest, Spells kind.nameStart.toList start ∧ name = start ++ rest

theorem Named.append {kind : ConstraintKind} {name : List Char} (named : Named kind name)
    (more : List Char) : Named kind (name ++ more) := by
  obtain ⟨start, rest, spells, rfl⟩ := named
  exact ⟨start, rest ++ more, spells, List.append_assoc _ _ _⟩

/-- A text cut at a clause. -/
structure Parts where
  before : List Char
  alter : List Char
  table : List Char
  add : List Char
  gap : List Char
  name : List Char
  nameGap : List Char
  keyword : List Char
  keywordGap : List Char
  inside : ColumnParts

namespace Parts

/-- The text from the blanks before the keyword. -/
def definition (parts : Parts) : List Char :=
  parts.nameGap ++ (parts.keyword ++ (parts.keywordGap ++ '(' :: parts.inside.text))

/-- The text from the words that add the constraint. -/
def addition (parts : Parts) : List Char :=
  parts.add ++ (parts.gap ++ (parts.name ++ parts.definition))

def text (parts : Parts) : List Char :=
  parts.before ++ (parts.alter ++ (parts.table ++ parts.addition))

def clause (parts : Parts) : Clause := ⟨parts.table, parts.name, parts.inside.column⟩

structure Fits (kind : ConstraintKind) (parts : Parts) : Prop where
  alter : Spells "ALTER TABLE".toList parts.alter
  add : Spells "ADD CONSTRAINT".toList parts.add
  gap : parts.gap ≠ [] ∧ Blank parts.gap
  name : Named kind parts.name
  nameGap : parts.nameGap ≠ [] ∧ Blank parts.nameGap
  keyword : Spells kind.keyword.toList parts.keyword
  keywordGap : Blank parts.keywordGap
  inside : parts.inside.Fits kind

/-- The cut that is preferred to all others: the first one, with the longest
table; then the longest blanks before the name, the longest name and the most
columns passed over decide. -/
structure Chosen (kind : ConstraintKind) (text : List Char) (parts : Parts) : Prop where
  text_eq : parts.text = text
  fits : parts.Fits kind
  first : ∀ other : Parts, other.text = text → other.Fits kind →
    parts.before.length ≤ other.before.length
  table : ∀ other : Parts, other.text = text → other.Fits kind →
    other.before.length = parts.before.length → other.table.length ≤ parts.table.length
  gap : ∀ other : Parts, other.text = text → other.Fits kind →
    other.before.length = parts.before.length → other.table.length = parts.table.length →
    other.gap.length ≤ parts.gap.length
  name : ∀ other : Parts, other.text = text → other.Fits kind →
    other.before.length = parts.before.length → other.table.length = parts.table.length →
    other.gap.length = parts.gap.length → other.name.length ≤ parts.name.length
  skipped : ∀ other : Parts, other.text = text → other.Fits kind →
    other.before.length = parts.before.length → other.table.length = parts.table.length →
    other.gap.length = parts.gap.length → other.name.length = parts.name.length →
    other.inside.skipped.length ≤ parts.inside.skipped.length

end Parts

section Column

variable {kind : ConstraintKind}

theorem solid_of_columnChar {c : Char} (inside : columnChar kind c = true) : isBlank c = false := by
  cases kind <;> simp_all [columnChar, isColumnChar]

theorem Ends.stop {after : List Char} (ends : Ends kind after) :
    ∀ c, after.head? = some c → columnChar kind c = false := by
  have blank : ∀ {gap rest : List Char}, gap ≠ [] → Blank gap →
      ∀ c, (gap ++ rest).head? = some c → columnChar kind c = false := by
    intro gap rest filled blank c head
    obtain ⟨d, gap, rfl⟩ := List.exists_cons_of_ne_nil filled
    obtain rfl := Option.some.inj head
    by_contra inside
    have solid := solid_of_columnChar (by simpa using inside)
    rw [blank d List.mem_cons_self] at solid
    cases solid
  cases kind with
  | check | notNull =>
    obtain ⟨gap, rest, filled, gapBlank, rfl⟩ := ends
    exact blank filled gapBlank
  | primaryKey | uniqueKey => exact ends
  | foreignKey =>
    obtain ⟨gap, between, references, rest, gapBlank, -, rfl⟩ := ends
    by_cases empty : gap = []
    · subst empty
      intro c head
      obtain rfl := Option.some.inj head
      rfl
    · exact blank empty gapBlank

/-- The column is found at the same place however it is looked for. -/
theorem ColumnParts.Fits.unique {parts other : ColumnParts} (fits : parts.Fits kind)
    (otherFits : other.Fits kind) (same : parts.text = other.text)
    (skipped : parts.skipped.length = other.skipped.length) : parts = other := by
  have solid : ∀ {parts : ColumnParts}, parts.Fits kind →
      SolidFirst (parts.column ++ parts.after) := by
    intro parts fits
    obtain ⟨c, column, shape⟩ := List.exists_cons_of_ne_nil fits.filled
    rw [shape]
    exact solidFirst_cons (solid_of_columnChar (fits.column c (shape ▸ List.mem_cons_self))) _
  obtain ⟨skippedEq, same⟩ := List.append_inj same skipped
  obtain ⟨gapEq, same⟩ := run_unique same fits.gap (solid fits) otherFits.gap (solid otherFits)
  obtain ⟨columnEq, afterEq⟩ :=
    run_unique same fits.column fits.ends.stop otherFits.column otherFits.ends.stop
  cases parts
  cases other
  simp_all

def columnOf (kind : ConstraintKind) (text : List Char) : List Char :=
  (trimStart text).takeWhile (columnChar kind)

def afterColumn (kind : ConstraintKind) (text : List Char) : List Char :=
  (trimStart text).dropWhile (columnChar kind)

theorem afterColumn_stop (kind : ConstraintKind) (text : List Char) :
    ∀ c, (afterColumn kind text).head? = some c → columnChar kind c = false := by
  intro c head
  have stops := List.head?_dropWhile_not (columnChar kind) (trimStart text)
  rw [← afterColumn, head] at stops
  simpa using stops

/-- Reads a column with nothing passed over. -/
def readPlain : ConstraintKind → List Char → Option (List Char)
  | .check, text | .notNull, text => readOperand text
  | .primaryKey, text | .uniqueKey, text => readFirstColumn text
  | .foreignKey, text => readClosingColumn text

theorem readOperand_eq_some_iff {text column : List Char} :
    readOperand text = some column ↔
      columnOf .check text = column ∧ column ≠ [] ∧ Ends .check (afterColumn .check text) := by
  have stops := afterColumn_stop .check text
  have operand : (trimStart text).takeWhile (!isBlank ·) = columnOf .check text := rfl
  have after : (trimStart text).dropWhile (!isBlank ·) = afterColumn .check text := rfl
  rw [readOperand, operand, after]
  cases columnOf .check text with
  | nil => exact ⟨fun read => (by cases read), fun found => absurd found.1.symm found.2.1⟩
  | cons c operand =>
    cases after : afterColumn .check text with
    | nil =>
      constructor
      · intro none_read
        cases none_read
      · rintro ⟨-, -, gap, rest, filled, -, same⟩
        exact absurd (List.append_eq_nil_iff.mp same.symm).1 filled
    | cons d rest =>
      have blank : isBlank d = true := by simpa [after, columnChar] using stops d
      constructor
      · intro read
        cases read
        exact ⟨rfl, List.cons_ne_nil _ _, [d], rest, List.cons_ne_nil _ _, blank_singleton blank, rfl⟩
      · rintro ⟨rfl, -, -⟩
        rfl

theorem readFirstColumn_eq_some_iff {text column : List Char} :
    readFirstColumn text = some column ↔
      columnOf .primaryKey text = column ∧ column ≠ [] ∧
        Ends .primaryKey (afterColumn .primaryKey text) := by
  have ends : Ends .primaryKey (afterColumn .primaryKey text) := afterColumn_stop .primaryKey text
  have found : (trimStart text).takeWhile isColumnChar = columnOf .primaryKey text := rfl
  rw [readFirstColumn, found]
  cases columnOf .primaryKey text with
  | nil => exact ⟨fun read => (by cases read), fun found => absurd found.1.symm found.2.1⟩
  | cons c body =>
    constructor
    · intro read
      cases read
      exact ⟨rfl, List.cons_ne_nil _ _, ends⟩
    · rintro ⟨rfl, -, -⟩
      rfl

theorem ends_foreignKey_iff {after : List Char} :
    Ends .foreignKey after ↔ ∃ rest, trimStart after = ')' :: rest ∧
      anySuffix (fun left => (readCaseless "REFERENCES".toList left).isSome) rest = true := by
  constructor
  · rintro ⟨gap, between, references, rest, blank, spells, rfl⟩
    refine ⟨_, trimStart_run blank (solidFirst_cons rfl _), anySuffix_iff.mpr ?_⟩
    exact ⟨between, references ++ rest, rfl, by rw [readCaseless_spells spells]; rfl⟩
  · rintro ⟨rest, closed, found⟩
    obtain ⟨gap, blank, same⟩ := exists_trimStart after
    obtain ⟨between, left, rfl, read⟩ := anySuffix_iff.mp found
    obtain ⟨tail, read⟩ := Option.isSome_iff_exists.mp read
    obtain ⟨references, spells, rfl⟩ := readCaseless_eq_some_iff.mp read
    exact ⟨gap, between, references, tail, blank, spells, closed ▸ same⟩

theorem readClosingColumn_eq_some_iff {text column : List Char} :
    readClosingColumn text = some column ↔
      columnOf .foreignKey text = column ∧ column ≠ [] ∧
        Ends .foreignKey (afterColumn .foreignKey text) := by
  have found : (trimStart text).takeWhile isColumnChar = columnOf .foreignKey text := rfl
  have after : (trimStart text).dropWhile isColumnChar = afterColumn .foreignKey text := rfl
  rw [readClosingColumn, found, after, ends_foreignKey_iff]
  cases columnOf .foreignKey text with
  | nil => exact ⟨fun read => (by cases read), fun found => absurd found.1.symm found.2.1⟩
  | cons c body =>
    constructor
    · intro read
      split at read
      · cases read
      · rename_i rest closed _
        split at read
        · rename_i found
          cases read
          exact ⟨rfl, List.cons_ne_nil _ _, rest, closed, found⟩
        · cases read
      · cases read
    · rintro ⟨rfl, -, rest, closed, found⟩
      rw [closed]
      exact if_pos found

theorem readPlain_eq_some_iff {text column : List Char} :
    readPlain kind text = some column ↔
      columnOf kind text = column ∧ column ≠ [] ∧ Ends kind (afterColumn kind text) := by
  cases kind with
  | check | notNull => exact readOperand_eq_some_iff
  | primaryKey | uniqueKey => exact readFirstColumn_eq_some_iff
  | foreignKey => exact readClosingColumn_eq_some_iff

/-- A column is read where it stands, after blanks. -/
theorem readPlain_eq_some_iff_fits {text column : List Char} :
    readPlain kind text = some column ↔
      ∃ gap after, ColumnParts.Fits kind ⟨[], gap, column, after⟩ ∧
        text = gap ++ (column ++ after) := by
  rw [readPlain_eq_some_iff]
  constructor
  · rintro ⟨rfl, filled, ends⟩
    obtain ⟨gap, blank, same⟩ := exists_trimStart text
    refine ⟨gap, afterColumn kind text, ⟨Or.inl rfl, blank, filled, ?_, ends⟩, ?_⟩
    · exact fun c member => List.mem_takeWhile_imp member
    · rw [columnOf, afterColumn, List.takeWhile_append_dropWhile, ← same]
  · rintro ⟨gap, after, fits, rfl⟩
    obtain ⟨c, column, rfl⟩ := List.exists_cons_of_ne_nil fits.filled
    have solid := solid_of_columnChar (fits.column c List.mem_cons_self)
    have trimmed := trimStart_run fits.gap (solidFirst_cons solid (column ++ after))
    rw [← List.cons_append] at trimmed
    refine ⟨?_, fits.filled, ?_⟩
    · rw [columnOf, trimmed, takeWhile_run fits.column fits.ends.stop]
    · rw [afterColumn, trimmed, dropWhile_run fits.column fits.ends.stop]
      exact fits.ends

theorem readAfterComma_eq_some_iff {text column : List Char} :
    readAfterComma text = some column ↔
      ∃ rest, text = ',' :: rest ∧ readPlain .foreignKey rest = some column := by
  constructor
  · intro read
    unfold readAfterComma at read
    split at read
    · exact ⟨_, rfl, read⟩
    · cases read
  · rintro ⟨rest, rfl, read⟩
    exact read

/-- The cut at the column that passes over the most. -/
structure ColumnParts.Chosen (kind : ConstraintKind) (text : List Char) (parts : ColumnParts) :
    Prop where
  text_eq : parts.text = text
  fits : parts.Fits kind
  skipped : ∀ other : ColumnParts, other.text = text → other.Fits kind →
    other.skipped.length ≤ parts.skipped.length

theorem ColumnParts.chosen_plain {gap column after : List Char}
    (fits : ColumnParts.Fits kind ⟨[], gap, column, after⟩)
    (nothing : ∀ other : ColumnParts, other.text = gap ++ (column ++ after) → other.Fits kind →
      other.skipped = []) :
    ColumnParts.Chosen kind (gap ++ (column ++ after)) ⟨[], gap, column, after⟩ := by
  refine ⟨rfl, fits, ?_⟩
  intro other same otherFits
  rw [nothing other same otherFits]

theorem readColumn_of_ne_foreignKey (other : kind ≠ .foreignKey) (text : List Char) :
    readColumn kind text = readPlain kind text := by
  cases kind with
  | foreignKey => exact absurd rfl other
  | check | notNull | primaryKey | uniqueKey => rfl

/-- The columns passed over end with the comma before the one that is read. -/
theorem ColumnParts.Fits.readAfterComma_ne_none {parts : ColumnParts}
    (fits : parts.Fits .foreignKey) (some_skipped : parts.skipped ≠ []) :
    ∃ run rest, parts.skipped = run ++ [','] ∧ parts.text = run ++ rest ∧
      readAfterComma rest ≠ none := by
  obtain empty | ⟨-, last⟩ := fits.skipped
  · exact absurd empty some_skipped
  obtain ⟨run, shape⟩ := List.getLast?_eq_some_iff.mp last
  refine ⟨run, ',' :: (parts.gap ++ (parts.column ++ parts.after)), shape, ?_, ?_⟩
  · rw [text, shape, List.append_assoc]
    rfl
  · have plain : ColumnParts.Fits .foreignKey ⟨[], parts.gap, parts.column, parts.after⟩ :=
      ⟨Or.inl rfl, fits.gap, fits.filled, fits.column, fits.ends⟩
    have read : readClosingColumn (parts.gap ++ (parts.column ++ parts.after)) =
        some parts.column := readPlain_eq_some_iff_fits.mpr ⟨_, _, plain, rfl⟩
    rw [readAfterComma, read]
    exact Option.some_ne_none _

theorem exists_chosen_of_readColumn {text column : List Char}
    (read : readColumn kind text = some column) :
    ∃ parts : ColumnParts, parts.Chosen kind text ∧ parts.column = column := by
  by_cases foreign : kind = .foreignKey
  · subst foreign
    rw [readColumn, readLastColumn] at read
    split at read
    · rename_i run found searched
      cases read
      obtain ⟨rest, rfl, longest⟩ := longestRun_eq_some searched
      obtain ⟨inner, rfl, closing⟩ := readAfterComma_eq_some_iff.mp longest.answered
      obtain ⟨gap, after, fits, rfl⟩ := readPlain_eq_some_iff_fits.mp closing
      refine ⟨⟨run ++ [','], gap, column, after⟩, ⟨?_, ?_, ?_⟩, rfl⟩
      · simp [ColumnParts.text]
      · exact ⟨Or.inr ⟨rfl, List.getLast?_concat⟩, fits.gap, fits.filled, fits.column, fits.ends⟩
      · intro other same otherFits
        by_cases nothing : other.skipped = []
        · simp [nothing]
        · obtain ⟨run', rest', shape, split, answered⟩ :=
            otherFits.readAfterComma_ne_none nothing
          have shorter := longest.length_le (same.symm.trans split) (by simp) answered
          simpa [shape] using shorter
    · rename_i searched
      have read : readPlain .foreignKey text = some column := read
      obtain ⟨gap, after, fits, rfl⟩ := readPlain_eq_some_iff_fits.mp read
      refine ⟨_, ColumnParts.chosen_plain fits ?_, rfl⟩
      intro other same otherFits
      by_contra some_skipped
      obtain ⟨run, rest, -, split, answered⟩ := otherFits.readAfterComma_ne_none some_skipped
      exact answered (longestRun_eq_none_iff.mp searched run rest (same.symm.trans split) (by simp))
  · rw [readColumn_of_ne_foreignKey foreign] at read
    obtain ⟨gap, after, fits, rfl⟩ := readPlain_eq_some_iff_fits.mp read
    refine ⟨_, ColumnParts.chosen_plain fits ?_, rfl⟩
    intro other _ otherFits
    obtain empty | ⟨key, -⟩ := otherFits.skipped
    · exact empty
    · exact absurd key foreign

theorem solid_of_readColumn {text column : List Char} (read : readColumn kind text = some column) :
    ∀ c ∈ column, isBlank c = false := by
  obtain ⟨parts, chosen, rfl⟩ := exists_chosen_of_readColumn read
  exact fun c member => solid_of_columnChar (chosen.fits.column c member)

theorem ColumnParts.Fits.readColumn_ne_none {parts : ColumnParts} (fits : parts.Fits kind) :
    readColumn kind parts.text ≠ none := by
  have plain : parts.skipped = [] → readPlain kind parts.text ≠ none := by
    intro empty
    have shape : parts = ⟨[], parts.gap, parts.column, parts.after⟩ := by
      cases parts
      simp_all
    rw [shape] at fits
    have read := readPlain_eq_some_iff_fits.mpr ⟨_, _, fits, rfl⟩
    rw [text, empty, List.nil_append, read]
    exact Option.some_ne_none _
  by_cases foreign : kind = .foreignKey
  · subst foreign
    rw [readColumn, readLastColumn]
    split
    · exact Option.some_ne_none _
    · rename_i searched
      by_cases empty : parts.skipped = []
      · exact plain empty
      · obtain ⟨run, rest, -, split, answered⟩ := fits.readAfterComma_ne_none empty
        exact absurd (longestRun_eq_none_iff.mp searched run rest split (by simp)) answered
  · rw [readColumn_of_ne_foreignKey foreign]
    obtain empty | ⟨key, -⟩ := fits.skipped
    · exact plain empty
    · exact absurd key foreign

end Column

section Readers

variable {kind : ConstraintKind}

theorem keyword_eq_cons (kind : ConstraintKind) :
    ∃ p word, kind.keyword.toList = p :: word ∧ isBlank p = false := by
  cases kind <;> exact ⟨_, _, rfl, rfl⟩

theorem readDefinition_run {nameGap keyword keywordGap : List Char}
    (gap : nameGap ≠ [] ∧ Blank nameGap) (spells : Spells kind.keyword.toList keyword)
    (blank : Blank keywordGap) (inside : List Char) :
    readDefinition kind (nameGap ++ (keyword ++ (keywordGap ++ '(' :: inside))) =
      readColumn kind inside := by
  obtain ⟨p, word, shape, solid⟩ := keyword_eq_cons kind
  have first := (shape ▸ spells).solidFirst solid (keywordGap ++ '(' :: inside)
  rw [readDefinition, readBlanks_run gap.1 gap.2 first]
  simp only [Option.bind_eq_bind, Option.bind_some, readCaseless_spells spells]
  rw [trimStart_run blank (solidFirst_cons rfl inside)]
  rfl

theorem readDefinition_eq_some {text column : List Char}
    (read : readDefinition kind text = some column) :
    ∃ nameGap keyword keywordGap inside, (nameGap ≠ [] ∧ Blank nameGap) ∧
      Spells kind.keyword.toList keyword ∧ Blank keywordGap ∧
      text = nameGap ++ (keyword ++ (keywordGap ++ '(' :: inside)) ∧
      readColumn kind inside = some column := by
  simp only [readDefinition, Option.bind_eq_bind, Option.bind_eq_some_iff] at read
  obtain ⟨afterGap, blanks, afterKeyword, spelled, read⟩ := read
  obtain ⟨nameGap, filled, blank, -, rfl⟩ := readBlanks_eq_some_iff.mp blanks
  obtain ⟨keyword, spells, rfl⟩ := readCaseless_eq_some_iff.mp spelled
  split at read
  · rename_i inside opened
    obtain ⟨keywordGap, blankAfter, same⟩ := exists_trimStart afterKeyword
    rw [opened] at same
    exact ⟨nameGap, keyword, keywordGap, inside, ⟨filled, blank⟩, spells, blankAfter, by rw [same],
      read⟩
  · cases read

theorem readName_eq_some {text name column : List Char}
    (read : readName kind text = some (name, column)) :
    ∃ rest, text = name ++ rest ∧ Named kind name ∧ readDefinition kind rest = some column ∧
      ∀ name' rest', text = name' ++ rest' → Named kind name' →
        readDefinition kind rest' ≠ none → name'.length ≤ name.length := by
  simp only [readName, Option.bind_eq_bind, Option.bind_eq_some_iff] at read
  obtain ⟨afterStart, spelled, ⟨tail, found⟩, searched, same⟩ := read
  cases same
  obtain ⟨start, spells, rfl⟩ := readCaseless_eq_some_iff.mp spelled
  obtain ⟨rest, rfl, longest⟩ := longestRun_eq_some searched
  have taken : (start ++ (tail ++ rest)).take kind.nameStart.length = start := by
    rw [← String.length_toList, ← spells.length_eq, List.take_left]
  rw [taken]
  refine ⟨rest, by rw [List.append_assoc], ⟨start, tail, spells, rfl⟩, longest.answered, ?_⟩
  rintro name' rest' same ⟨start', tail', spells', rfl⟩ answered
  rw [List.append_assoc] at same
  obtain ⟨rfl, tails⟩ := List.append_inj same (by rw [spells.length_eq, spells'.length_eq])
  have shorter := longest.length_le tails (by simp) answered
  simpa using shorter

theorem readName_ne_none {name rest : List Char} (named : Named kind name)
    (answered : readDefinition kind rest ≠ none) : readName kind (name ++ rest) ≠ none := by
  obtain ⟨start, tail, spells, rfl⟩ := named
  have searched : longestRun (fun _ => true) (readDefinition kind) (tail ++ rest) ≠ none :=
    fun nothing => answered (longestRun_eq_none_iff.mp nothing tail rest rfl (by simp))
  obtain ⟨⟨run, found⟩, searched⟩ := Option.ne_none_iff_exists'.mp searched
  rw [readName, List.append_assoc, readCaseless_spells spells]
  simp [searched]

theorem readAddition_eq_some {text name column : List Char}
    (read : readAddition kind text = some (name, column)) :
    ∃ add gap rest, Spells "ADD CONSTRAINT".toList add ∧ (gap ≠ [] ∧ Blank gap) ∧
      text = add ++ (gap ++ rest) ∧ readName kind rest = some (name, column) ∧
      ∀ gap' rest', gap ++ rest = gap' ++ rest' → gap' ≠ [] ∧ Blank gap' →
        readName kind rest' ≠ none → gap'.length ≤ gap.length := by
  simp only [readAddition, Option.bind_eq_bind, Option.bind_eq_some_iff] at read
  obtain ⟨afterAdd, spelled, read⟩ := read
  obtain ⟨add, spells, rfl⟩ := readCaseless_eq_some_iff.mp spelled
  split at read
  · cases read
  · rename_i c left
    split at read
    · rename_i first
      obtain ⟨⟨run, found⟩, searched, same⟩ := Option.map_eq_some_iff.mp read
      cases same
      obtain ⟨rest, rfl, longest⟩ := longestRun_eq_some searched
      refine ⟨add, c :: run, rest, spells, ⟨List.cons_ne_nil _ _, ?_⟩, rfl, longest.answered, ?_⟩
      · exact (blank_singleton first).append longest.accepted
      · rintro gap' rest' same ⟨filled, blank⟩ answered
        obtain ⟨d, gap', rfl⟩ := List.exists_cons_of_ne_nil filled
        have others : ∀ e ∈ gap', isBlank e = true :=
          fun e member => blank e (List.mem_cons_of_mem _ member)
        have shorter := longest.length_le (List.cons.inj same).2 others answered
        simpa using shorter
    · cases read

theorem readAddition_ne_none {add gap rest : List Char} (spells : Spells "ADD CONSTRAINT".toList add)
    (blanks : gap ≠ [] ∧ Blank gap) (answered : readName kind rest ≠ none) :
    readAddition kind (add ++ (gap ++ rest)) ≠ none := by
  obtain ⟨c, gap, rfl⟩ := List.exists_cons_of_ne_nil blanks.1
  have first := blanks.2 c List.mem_cons_self
  have others : ∀ d ∈ gap, isBlank d = true :=
    fun d member => blanks.2 d (List.mem_cons_of_mem _ member)
  have searched : longestRun isBlank (readName kind) (gap ++ rest) ≠ none :=
    fun nothing => answered (longestRun_eq_none_iff.mp nothing gap rest rfl others)
  rw [readAddition, readCaseless_spells spells]
  simp [first, searched]

theorem read_eq_some {text : List Char} {clause : Clause} (found : read kind text = some clause) :
    ∃ alter rest, Spells "ALTER TABLE".toList alter ∧ text = alter ++ (clause.table ++ rest) ∧
      readAddition kind rest = some (clause.name, clause.column) ∧
      ∀ table' rest', clause.table ++ rest = table' ++ rest' → readAddition kind rest' ≠ none →
        table'.length ≤ clause.table.length := by
  simp only [read, Option.bind_eq_bind, Option.bind_eq_some_iff] at found
  obtain ⟨afterAlter, spelled, ⟨table, name, column⟩, searched, same⟩ := found
  cases same
  obtain ⟨alter, spells, rfl⟩ := readCaseless_eq_some_iff.mp spelled
  obtain ⟨rest, rfl, longest⟩ := longestRun_eq_some searched
  refine ⟨alter, rest, spells, rfl, longest.answered, ?_⟩
  intro table' rest' same answered
  exact longest.length_le same (by simp) answered

theorem read_ne_none {alter table rest : List Char} (spells : Spells "ALTER TABLE".toList alter)
    (answered : readAddition kind rest ≠ none) : read kind (alter ++ (table ++ rest)) ≠ none := by
  have searched : longestRun (fun _ => true) (readAddition kind) (table ++ rest) ≠ none :=
    fun nothing => answered (longestRun_eq_none_iff.mp nothing table rest rfl (by simp))
  obtain ⟨⟨run, found⟩, searched⟩ := Option.ne_none_iff_exists'.mp searched
  rw [read, readCaseless_spells spells]
  simp [searched]

end Readers

namespace Parts.Fits

variable {kind : ConstraintKind} {parts : Parts}

theorem readDefinition_ne_none (fits : parts.Fits kind) :
    readDefinition kind parts.definition ≠ none := by
  rw [definition, readDefinition_run fits.nameGap fits.keyword fits.keywordGap]
  exact fits.inside.readColumn_ne_none

theorem readName_ne_none (fits : parts.Fits kind) :
    readName kind (parts.name ++ parts.definition) ≠ none :=
  Clause.readName_ne_none fits.name fits.readDefinition_ne_none

theorem readAddition_ne_none (fits : parts.Fits kind) : readAddition kind parts.addition ≠ none :=
  Clause.readAddition_ne_none fits.add fits.gap fits.readName_ne_none

theorem read_ne_none (fits : parts.Fits kind) :
    read kind (parts.alter ++ (parts.table ++ parts.addition)) ≠ none :=
  Clause.read_ne_none fits.alter fits.readAddition_ne_none

end Parts.Fits

section Agreement

variable {kind : ConstraintKind} {parts other : Parts}

/-- Two cuts of a text that begin at the same place go on with the same text. -/
theorem Parts.Fits.agree_alter (fits : parts.Fits kind) (otherFits : other.Fits kind)
    (same : parts.text = other.text) (before : parts.before.length = other.before.length) :
    parts.table ++ parts.addition = other.table ++ other.addition := by
  obtain ⟨-, same⟩ := List.append_inj same before
  exact (List.append_inj same (by rw [fits.alter.length_eq, otherFits.alter.length_eq])).2

theorem Parts.Fits.agree_table (fits : parts.Fits kind) (otherFits : other.Fits kind)
    (same : parts.text = other.text) (before : parts.before.length = other.before.length)
    (table : parts.table.length = other.table.length) :
    parts.table = other.table ∧
      parts.gap ++ (parts.name ++ parts.definition) =
        other.gap ++ (other.name ++ other.definition) := by
  obtain ⟨tables, same⟩ := List.append_inj (fits.agree_alter otherFits same before) table
  exact ⟨tables, (List.append_inj same (by rw [fits.add.length_eq, otherFits.add.length_eq])).2⟩

theorem Parts.Fits.agree_name (fits : parts.Fits kind) (otherFits : other.Fits kind)
    (same : parts.text = other.text) (before : parts.before.length = other.before.length)
    (table : parts.table.length = other.table.length) (gap : parts.gap.length = other.gap.length)
    (name : parts.name.length = other.name.length) :
    parts.name = other.name ∧ parts.inside.text = other.inside.text := by
  obtain ⟨-, same⟩ := fits.agree_table otherFits same before table
  obtain ⟨-, same⟩ := List.append_inj same gap
  obtain ⟨names, same⟩ := List.append_inj same name
  refine ⟨names, ?_⟩
  -- the blanks on both sides of the keyword are maximal runs
  have solid : ∀ {parts : Parts}, parts.Fits kind →
      SolidFirst (parts.keyword ++ (parts.keywordGap ++ '(' :: parts.inside.text)) := by
    intro parts fits
    obtain ⟨p, word, shape, plain⟩ := keyword_eq_cons kind
    exact (shape ▸ fits.keyword).solidFirst plain _
  obtain ⟨-, same⟩ :=
    run_unique same fits.nameGap.2 (solid fits) otherFits.nameGap.2 (solid otherFits)
  obtain ⟨-, same⟩ :=
    List.append_inj same (by rw [fits.keyword.length_eq, otherFits.keyword.length_eq])
  obtain ⟨-, same⟩ := run_unique same fits.keywordGap (solidFirst_cons rfl _) otherFits.keywordGap
    (solidFirst_cons rfl _)
  exact (List.cons.inj same).2

/-- The preferred cut leaves no choice in what is found. -/
theorem Parts.Chosen.unique {text : List Char} (chosen : parts.Chosen kind text)
    (otherChosen : other.Chosen kind text) :
    parts.before.length = other.before.length ∧ parts.clause = other.clause := by
  have fits := chosen.fits
  have otherFits := otherChosen.fits
  have textEq := chosen.text_eq
  have otherEq := otherChosen.text_eq
  have same := textEq.trans otherEq.symm
  have before : parts.before.length = other.before.length :=
    Nat.le_antisymm (chosen.first other otherEq otherFits)
      (otherChosen.first parts textEq fits)
  have table : parts.table.length = other.table.length :=
    Nat.le_antisymm (otherChosen.table parts textEq fits before)
      (chosen.table other otherEq otherFits before.symm)
  have gap : parts.gap.length = other.gap.length :=
    Nat.le_antisymm (otherChosen.gap parts textEq fits before table)
      (chosen.gap other otherEq otherFits before.symm table.symm)
  have name : parts.name.length = other.name.length :=
    Nat.le_antisymm (otherChosen.name parts textEq fits before table gap)
      (chosen.name other otherEq otherFits before.symm table.symm gap.symm)
  have skipped : parts.inside.skipped.length = other.inside.skipped.length :=
    Nat.le_antisymm (otherChosen.skipped parts textEq fits before table gap name)
      (chosen.skipped other otherEq otherFits before.symm table.symm gap.symm name.symm)
  obtain ⟨tables, -⟩ := fits.agree_table otherFits same before table
  obtain ⟨names, inside⟩ := fits.agree_name otherFits same before table gap name
  have columns := fits.inside.unique otherFits.inside inside skipped
  refine ⟨before, ?_⟩
  rw [clause, clause, tables, names, columns]

end Agreement

section Search

variable {kind : ConstraintKind} {text : List Char}

theorem find?_eq_none_of {parts : Parts} (searched : find? kind text = none)
    (same : parts.text = text) : ¬ parts.Fits kind :=
  fun fits => fits.read_ne_none (searchFirst_eq_none_iff.mp searched parts.before _ same.symm)

theorem exists_chosen_of_find? {start : Nat} {clause : Clause}
    (searched : find? kind text = some (start, clause)) :
    ∃ parts : Parts, parts.Chosen kind text ∧ parts.before.length = start ∧
      parts.clause = clause := by
  obtain ⟨before, rest, rfl, rfl, found, none_before⟩ := searchFirst_eq_some searched
  obtain ⟨alter, rest, alterSpells, rfl, added, longestTable⟩ := read_eq_some found
  obtain ⟨add, gap, rest, addSpells, gapBlanks, rfl, named, longestGap⟩ :=
    readAddition_eq_some added
  obtain ⟨rest, rfl, nameFits, defined, longestName⟩ := readName_eq_some named
  obtain ⟨nameGap, keyword, keywordGap, inside, nameBlanks, keywordSpells, keywordBlank, rfl,
    column⟩ := readDefinition_eq_some defined
  obtain ⟨columnParts, chosen, columnEq⟩ := exists_chosen_of_readColumn column
  obtain ⟨rfl, insideFits, mostSkipped⟩ := chosen
  let parts : Parts := ⟨before, alter, clause.table, add, gap, clause.name, nameGap, keyword,
    keywordGap, columnParts⟩
  have fits : parts.Fits kind := ⟨alterSpells, addSpells, gapBlanks, nameFits, nameBlanks,
    keywordSpells, keywordBlank, insideFits⟩
  refine ⟨parts, ⟨rfl, fits, ?_, ?_, ?_, ?_, ?_⟩, rfl, ?_⟩
  · intro other same otherFits
    by_contra earlier
    exact otherFits.read_ne_none (none_before other.before _ same.symm (Nat.lt_of_not_le earlier))
  · intro other same otherFits sameBefore
    have rests := fits.agree_alter otherFits same.symm sameBefore.symm
    exact longestTable _ _ rests otherFits.readAddition_ne_none
  · intro other same otherFits sameBefore sameTable
    have rests := (fits.agree_table otherFits same.symm sameBefore.symm sameTable.symm).2
    exact longestGap _ _ rests otherFits.gap otherFits.readName_ne_none
  · intro other same otherFits sameBefore sameTable sameGap
    have rests := (fits.agree_table otherFits same.symm sameBefore.symm sameTable.symm).2
    have names := (List.append_inj rests sameGap.symm).2
    exact longestName _ _ names otherFits.name otherFits.readDefinition_ne_none
  · intro other same otherFits sameBefore sameTable sameGap sameName
    have insides := (fits.agree_name otherFits same.symm sameBefore.symm sameTable.symm
      sameGap.symm sameName.symm).2
    exact mostSkipped other.inside insides.symm otherFits.inside
  · rw [Parts.clause, columnEq]

end Search

/-- The search is exact: it fails only where there is no clause, and what it
finds is what the preferred cut holds. -/
theorem find?_exact (kind : ConstraintKind) (statement : Statement) :
    (find? kind statement.chars = none ↔
      ∀ parts : Parts, parts.text = statement.chars → ¬ parts.Fits kind) ∧
    ∀ start clause, find? kind statement.chars = some (start, clause) ↔
      ∃ parts : Parts, parts.Chosen kind statement.chars ∧ parts.before.length = start ∧
        parts.clause = clause := by
  refine ⟨?_, ?_⟩
  · constructor
    · exact fun searched parts => find?_eq_none_of searched
    · intro nowhere
      cases searched : find? kind statement.chars with
      | none => rfl
      | some answer =>
        obtain ⟨parts, chosen, -⟩ := exists_chosen_of_find? searched
        exact absurd chosen.fits (nowhere parts chosen.text_eq)
  · intro start clause
    constructor
    · exact exists_chosen_of_find?
    · rintro ⟨parts, chosen, rfl, rfl⟩
      cases searched : find? kind statement.chars with
      | none => exact absurd chosen.fits (find?_eq_none_of searched chosen.text_eq)
      | some answer =>
        obtain ⟨other, otherChosen, before, clause⟩ := exists_chosen_of_find? searched
        obtain ⟨sameBefore, sameClause⟩ := chosen.unique otherChosen
        rw [sameBefore, sameClause, before, clause]

end SchemaLint.Clause
