import SchemaLint.Constraint.Convention
import SchemaLint.Proofs.Text.Replacing

/-! The names that conventions expect. The placeholder for the column is looked for
after the table has been put in; still it is found only where the format has it, in
no table that does not hold the placeholder itself and not across the end of one. -/
namespace SchemaLint
open Text

namespace ConstraintKind

/-- How the expected names of a kind begin. -/
def initials : ConstraintKind → String
  | .check => "CK_"
  | .foreignKey => "FK_"
  | .primaryKey => "PK_"
  | .uniqueKey => "UQ_"
  | .notNull => "NN_"

/-- The parts of an expected name one after the other. A primary key is named after
its table alone. -/
def joinedName (kind : ConstraintKind) (table column : String) : String :=
  if kind = .primaryKey then kind.initials ++ table
  else kind.initials ++ table ++ "_" ++ column

end ConstraintKind

namespace NamingConvention

variable {convention : NamingConvention} {start table rest : List Char}

theorem columnPlaceholder_not_infix (plain : '<' ∉ table) :
    ¬ columnPlaceholder.toList <:+: table :=
  fun inside => plain (inside.subset (by decide))

/-- A placeholder does not begin in plain text. -/
theorem columnPlaceholder_infix_append_iff (plain : '<' ∉ start) :
    columnPlaceholder.toList <:+: start ++ table ↔ columnPlaceholder.toList <:+: table :=
  infix_append_iff_of_not_mem plain _ _

/-- A placeholder does not end with an underscore. -/
theorem columnPlaceholder_infix_concat_iff :
    columnPlaceholder.toList <:+: table ++ ['_'] ↔ columnPlaceholder.toList <:+: table :=
  infix_concat_iff_of_ne (q := '>') (by decide) "<COLUMN_NAME".toList table

/-- Once the table is put in, there is one place for the column, and it is the
format's own. -/
theorem columnPlaceholder_unique (plain : '<' ∉ start)
    (absent : ¬ columnPlaceholder.toList <:+: table) {before after : List Char}
    (same : start ++ (table ++ ['_']) ++ columnPlaceholder.toList =
      before ++ (columnPlaceholder.toList ++ after)) :
    before = start ++ (table ++ ['_']) ∧ after = [] := by
  have once : '<' ∉ "COLUMN_NAME>".toList := by decide
  have missing : ¬ columnPlaceholder.toList <:+: start ++ (table ++ ['_']) := by
    rwa [columnPlaceholder_infix_append_iff plain, columnPlaceholder_infix_concat_iff]
  exact eq_of_append_word_eq once missing same

/-- The format with the table put in. -/
def withTable (convention : NamingConvention) (table : List Char) : List Char :=
  replaceFirst tablePlaceholder.toList table convention.format.toList

theorem withTable_eq
    (format : convention.format.toList = start ++ (tablePlaceholder.toList ++ rest))
    (plain : '<' ∉ start) (table : List Char) :
    convention.withTable table = start ++ (table ++ rest) := by
  rw [withTable, format]
  exact replaceFirst_append plain _ _ _

section Table

variable (format : convention.format.toList = start ++ tablePlaceholder.toList)
  (plain : '<' ∉ start)
include format plain

theorem withTable_table (table : List Char) : convention.withTable table = start ++ table := by
  have ended : convention.format.toList = start ++ (tablePlaceholder.toList ++ []) := by
    rw [format, List.append_nil]
  simpa using withTable_eq ended plain table

theorem expectedName_table (absent : ¬ columnPlaceholder.toList <:+: table) (column : String) :
    convention.expectedName (String.ofList table) column = String.ofList (start ++ table) := by
  have missing : ¬ columnPlaceholder.toList <:+: convention.withTable table := by
    rwa [withTable_table format plain, columnPlaceholder_infix_append_iff plain]
  rw [expectedName, String.toList_ofList, ← withTable, replaceFirst_eq_self missing,
    withTable_table format plain]

end Table

section Column

variable (format : convention.format.toList =
    start ++ (tablePlaceholder.toList ++ '_' :: columnPlaceholder.toList))
  (plain : '<' ∉ start)
include format plain

theorem withTable_column (table : List Char) :
    convention.withTable table = start ++ (table ++ ['_']) ++ columnPlaceholder.toList := by
  simpa using withTable_eq format plain table

theorem expectedName_column (absent : ¬ columnPlaceholder.toList <:+: table)
    (column : List Char) :
    convention.expectedName (String.ofList table) (String.ofList column) =
      String.ofList (start ++ (table ++ '_' :: column)) := by
  have first : ∀ before after, start ++ (table ++ ['_']) ++ (columnPlaceholder.toList ++ []) =
      before ++ (columnPlaceholder.toList ++ after) →
        (start ++ (table ++ ['_'])).length ≤ before.length := by
    intro before after same
    rw [List.append_nil] at same
    rw [(columnPlaceholder_unique plain absent same).1]
  have put := replaceFirst_eq_of_first first column
  rw [List.append_nil, ← withTable_column format plain] at put
  rw [expectedName, String.toList_ofList, String.toList_ofList, ← withTable, put]
  simp

end Column

/-- The formats of the conventions, part by part. -/
theorem format_of_mem_standard (member : convention ∈ standard) :
    '<' ∉ convention.kind.initials.toList ∧
      (convention.kind = .primaryKey ∧ convention.format.toList =
          convention.kind.initials.toList ++ tablePlaceholder.toList ∨
        convention.kind ≠ .primaryKey ∧ convention.format.toList =
          convention.kind.initials.toList ++
            (tablePlaceholder.toList ++ '_' :: columnPlaceholder.toList)) := by
  revert convention
  decide

/-- Expected names are put together by plain substitution, and the only place where
the column is put in is the format's own. -/
theorem expectedName_standard (member : convention ∈ standard) {table : String}
    (absent : ¬ columnPlaceholder.toList <:+: table.toList) (column : String) :
    convention.expectedName table column = convention.kind.joinedName table column ∧
    ∀ before after,
      convention.withTable table.toList = before ++ (columnPlaceholder.toList ++ after) →
        convention.kind ≠ .primaryKey ∧
          before = (convention.kind.initials ++ table ++ "_").toList ∧ after = [] := by
  obtain ⟨plain, ⟨key, format⟩ | ⟨other, format⟩⟩ := format_of_mem_standard member
  · refine ⟨?_, ?_⟩
    · have named := expectedName_table format plain absent column
      rw [String.ofList_toList] at named
      rw [named, ConstraintKind.joinedName, if_pos key, ← String.toList_append,
        String.ofList_toList]
    · intro before after same
      rw [withTable_table format plain] at same
      have present :
          columnPlaceholder.toList <:+: convention.kind.initials.toList ++ table.toList :=
        ⟨before, after, by simp [same]⟩
      exact absurd ((columnPlaceholder_infix_append_iff plain).mp present) absent
  · refine ⟨?_, ?_⟩
    · have named := expectedName_column format plain absent column.toList
      rw [String.ofList_toList, String.ofList_toList] at named
      rw [named, ConstraintKind.joinedName, if_neg other]
      apply String.toList_injective
      simp
    · intro before after same
      rw [withTable_column format plain] at same
      obtain ⟨rfl, rfl⟩ := columnPlaceholder_unique plain absent same
      exact ⟨other, by simp, rfl⟩

/-- The table ends with all but the last character of a placeholder, and the column
is a placeholder. -/
theorem expectedName_standard_brackets :
    ¬ columnPlaceholder.toList <:+: "t<COLUMN_NAME".toList ∧
    (⟨.uniqueKey, "Unique key constraint", "UQ_<TABLE_NAME>_<COLUMN_NAME>"⟩ :
      NamingConvention).expectedName "t<COLUMN_NAME" "<TABLE_NAME>" =
        "UQ_t<COLUMN_NAME_<TABLE_NAME>" := by
  have absent : ¬ columnPlaceholder.toList <:+: "t<COLUMN_NAME".toList := by decide
  exact ⟨absent, (expectedName_standard (by decide) absent "<TABLE_NAME>").1⟩

end NamingConvention
end SchemaLint
