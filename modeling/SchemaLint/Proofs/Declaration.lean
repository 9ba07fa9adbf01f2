import SchemaLint.Proofs.ClauseWords

/-! Statements that declare one constraint. Every text of the grammar is written
down by its parts, with the blanks between them as they stand; on one line it
is again a text of the grammar, and of its parts only the blanks have changed. -/
namespace SchemaLint
open Text Clause

/-- Blanks, where there may be some. -/
structure Padding where
  chars : List Char
  blank : Blank chars

/-- Blanks, where there must be some. -/
structure Spacing extends Padding where
  filled : chars ≠ []

def Spacing.space : Spacing := ⟨⟨[' '], blank_singleton rfl⟩, List.cons_ne_nil _ _⟩

def isIdentifierChar (c : Char) : Bool := c.isAlphanum || c == '_' || c == '$' || c == '#'

/-- A name that is not the keyword of a constraint. -/
structure Identifier where
  chars : List Char
  filled : chars ≠ []
  plain : ∀ c ∈ chars, isIdentifierChar c = true
  notCheck : ¬ Spells "CHECK".toList chars
  notUnique : ¬ Spells "UNIQUE".toList chars

/-- The name that a text without other characters spells. -/
def Identifier.ofChars (chars : List Char)
    (valid : chars ≠ [] ∧ chars.all isIdentifierChar = true ∧ ¬ Spells "CHECK".toList chars ∧
      ¬ Spells "UNIQUE".toList chars) : Identifier :=
  ⟨chars, valid.1, List.all_eq_true.mp valid.2.1, valid.2.2.1, valid.2.2.2⟩

structure ListedColumn where
  before : Padding
  column : Identifier
  after : Padding

/-- The columns between two parentheses. -/
inductive ColumnList where
  | single (column : ListedColumn)
  | more (column : ListedColumn) (others : ColumnList)

/-- The table and columns that a foreign key refers to. -/
structure Reference where
  gap : Padding
  tableGap : Spacing
  table : Identifier
  listGap : Padding
  columns : ColumnList

/-- How a check goes on after its first operand: blanks, and then anything
without the keyword of a constraint. -/
structure Condition where
  chars : List Char
  spaced : ∃ c rest, chars = c :: rest ∧ isBlank c = true
  free : KeywordFree chars

/-- What a constraint demands, from its keyword on. -/
inductive Demand where
  | primaryKey (gap : Padding) (columns : ColumnList)
  | unique (gap : Padding) (columns : ColumnList)
  | foreignKey (gap : Padding) (columns : ColumnList) (reference : Reference)
  | check (gap before : Padding) (column : Identifier) (condition : Condition)

/-- The words that add a constraint to a table, with the blanks before them. -/
structure Addition where
  addGap : Spacing
  nameGap : Spacing
  name : Identifier
  demandGap : Spacing
  demand : Demand

structure Declaration where
  tableGap : Spacing
  table : Identifier
  addGap : Spacing
  nameGap : Spacing
  name : Identifier
  demandGap : Spacing
  demand : Demand

section Text

def ListedColumn.chars (listed : ListedColumn) : List Char :=
  listed.before.chars ++ (listed.column.chars ++ listed.after.chars)

namespace ColumnList

/-- The text up to the closing parenthesis. -/
def chars : ColumnList → List Char
  | .single column => column.chars
  | .more column others => column.chars ++ ',' :: others.chars

def first : ColumnList → Identifier
  | .single column | .more column _ => column.column

def last : ColumnList → Identifier
  | .single column => column.column
  | .more _ others => others.last

end ColumnList

def Reference.chars (reference : Reference) : List Char :=
  reference.gap.chars ++ ("REFERENCES".toList ++ (reference.tableGap.chars ++
    (reference.table.chars ++ (reference.listGap.chars ++ '(' :: (reference.columns.chars ++ [')'])))))

/-- The blanks after the first operand, and the rest of the check. -/
def Condition.ofRest (gap : Spacing) (rest : List Char) (free : KeywordFree rest) : Condition where
  chars := gap.chars ++ rest
  spaced := by
    obtain ⟨c, blanks, shape⟩ := List.exists_cons_of_ne_nil gap.filled
    exact ⟨c, blanks ++ rest, by rw [shape]; rfl, gap.blank c (shape ▸ List.mem_cons_self)⟩
  free := free.gap gap.blank

namespace Demand

def kind : Demand → ConstraintKind
  | .primaryKey .. => .primaryKey
  | .unique .. => .uniqueKey
  | .foreignKey .. => .foreignKey
  | .check .. => .check

/-- The blanks before the opening parenthesis. -/
def gap : Demand → Padding
  | .primaryKey gap _ | .unique gap _ | .foreignKey gap _ _ | .check gap _ _ _ => gap

/-- The text after the opening parenthesis. -/
def inside : Demand → List Char
  | .primaryKey _ columns | .unique _ columns => columns.chars ++ [')']
  | .foreignKey _ columns reference => columns.chars ++ ')' :: reference.chars
  | .check _ before column condition => before.chars ++ (column.chars ++ condition.chars)

/-- The column after which the constraint is to be named. -/
def column : Demand → Identifier
  | .primaryKey _ columns | .unique _ columns => columns.first
  | .foreignKey _ columns _ => columns.last
  | .check _ _ column _ => column

def chars (demand : Demand) : List Char :=
  demand.kind.keyword.toList ++ (demand.gap.chars ++ '(' :: demand.inside)

end Demand

namespace Addition

/-- The text from the name on. -/
def named (addition : Addition) : List Char :=
  addition.name.chars ++ (addition.demandGap.chars ++ addition.demand.chars)

/-- The text from the words that add the constraint. -/
def text (addition : Addition) : List Char :=
  "ADD CONSTRAINT".toList ++ (addition.nameGap.chars ++ addition.named)

def chars (addition : Addition) : List Char := addition.addGap.chars ++ addition.text

end Addition

/-- What is declared, without the table. -/
def Declaration.added (declaration : Declaration) : Addition :=
  ⟨declaration.addGap, declaration.nameGap, declaration.name, declaration.demandGap,
    declaration.demand⟩

def Declaration.chars (declaration : Declaration) : List Char :=
  "ALTER TABLE".toList ++ (declaration.tableGap.chars ++ (declaration.table.chars ++
    (declaration.addGap.chars ++ ("ADD CONSTRAINT".toList ++ (declaration.nameGap.chars ++
      (declaration.name.chars ++ (declaration.demandGap.chars ++ declaration.demand.chars)))))))

end Text

namespace Identifier

theorem code_of_isIdentifierChar {c : Char} (plain : isIdentifierChar c = true) :
    ' '.toNat < c.toNat ∧ c.toNat < 0x80 := by
  have ranges : c.isAlphanum = ((decide ('A'.val ≤ c.val ∧ c.val ≤ 'Z'.val) ||
      (decide ('a'.val ≤ c.val) && decide (c.val ≤ 'z'.val))) ||
      (decide ('0'.val ≤ c.val) && decide (c.val ≤ '9'.val))) := rfl
  have code : c.toNat = c.val.toNat := rfl
  simp only [isIdentifierChar, ranges, Bool.or_eq_true, Bool.and_eq_true, decide_eq_true_eq,
    beq_iff_eq, UInt32.le_iff_toNat_le] at plain
  rcases plain with ((letter | rfl) | rfl) | rfl
  · simp only [UInt32.reduceToNat, Char.reduceVal, Char.reduceToNat] at letter ⊢
    omega
  · decide
  · decide
  · decide

theorem not_isStop_of_isIdentifierChar {c : Char} (plain : isIdentifierChar c = true) :
    ¬ IsStop c := by
  rintro (blank | rfl | rfl | rfl)
  · -- every range of blanks lies below the identifiers or above them
    have apart : ∀ range ∈ blankRanges, range.2 ≤ ' '.toNat ∨ 0x80 ≤ range.1 := by decide
    obtain ⟨range, member, low, high⟩ := exists_range_of_inRanges blank
    have code := code_of_isIdentifierChar plain
    rcases apart range member with below | above <;> omega
  · cases plain
  · cases plain
  · cases plain

theorem stopFree (name : Identifier) : StopFree name.chars :=
  fun c member => not_isStop_of_isIdentifierChar (name.plain c member)

theorem trimmed (name : Identifier) : Trimmed name.chars := name.stopFree.trimmed

theorem unbroken (name : Identifier) : name.chars.any isLineBreak = false :=
  unbroken_of_solid name.stopFree.solid

end Identifier

section OneLine

def Padding.oneLine (padding : Padding) : Padding := ⟨onOneLine padding.chars, padding.blank.onOneLine⟩

def Spacing.oneLine (spacing : Spacing) : Spacing :=
  ⟨spacing.toPadding.oneLine, fun empty => spacing.filled (onOneLine_eq_nil_iff.mp empty)⟩

def ListedColumn.oneLine (listed : ListedColumn) : ListedColumn :=
  ⟨listed.before.oneLine, listed.column, listed.after.oneLine⟩

def ColumnList.oneLine : ColumnList → ColumnList
  | .single column => .single column.oneLine
  | .more column others => .more column.oneLine others.oneLine

def Reference.oneLine (reference : Reference) : Reference :=
  ⟨reference.gap.oneLine, reference.tableGap.oneLine, reference.table, reference.listGap.oneLine,
    reference.columns.oneLine⟩

def Condition.oneLine (condition : Condition) : Condition where
  chars := onOneLine condition.chars
  spaced := by
    obtain ⟨c, rest, shape, blank⟩ := condition.spaced
    rw [shape]
    exact exists_onOneLine_blank blank rest
  free := condition.free.onOneLine

def Demand.oneLine : Demand → Demand
  | .primaryKey gap columns => .primaryKey gap.oneLine columns.oneLine
  | .unique gap columns => .unique gap.oneLine columns.oneLine
  | .foreignKey gap columns reference => .foreignKey gap.oneLine columns.oneLine reference.oneLine
  | .check gap before column condition =>
    .check gap.oneLine before.oneLine column condition.oneLine

def Addition.oneLine (addition : Addition) : Addition :=
  ⟨addition.addGap.oneLine, addition.nameGap.oneLine, addition.name, addition.demandGap.oneLine,
    addition.demand.oneLine⟩

/-- The declaration with its blanks put on one line. -/
def Declaration.oneLine (declaration : Declaration) : Declaration :=
  ⟨declaration.tableGap.oneLine, declaration.table, declaration.addGap.oneLine,
    declaration.nameGap.oneLine, declaration.name, declaration.demandGap.oneLine,
    declaration.demand.oneLine⟩

/-- A word keeps the blanks before it from the text after it. -/
theorem onOneLine_word {word : List Char} (filled : word ≠ [])
    (unbroken : word.any isLineBreak = false) (gap rest : List Char) :
    onOneLine (gap ++ (word ++ rest)) = onOneLine gap ++ (word ++ onOneLine rest) := by
  have unbroken : ∀ c ∈ word, isLineBreak c = false := by simpa using unbroken
  have apart : ¬ BreakAcross word rest := by
    rintro ⟨last, -⟩
    cases unbroken _ (List.mem_of_mem_getLast? last)
  obtain ⟨c, tail, rfl⟩ := List.exists_cons_of_ne_nil filled
  have first := unbroken c List.mem_cons_self
  rw [List.cons_append, onOneLine_append_cons first, ← onOneLine_cons first, ← List.cons_append,
    onOneLine_append apart, onOneLine_eq_self unbroken]

theorem Identifier.onOneLine_word (name : Identifier) (gap rest : List Char) :
    onOneLine (gap ++ (name.chars ++ rest)) = onOneLine gap ++ (name.chars ++ onOneLine rest) :=
  SchemaLint.onOneLine_word name.filled name.unbroken gap rest

theorem ColumnList.chars_oneLine (columns : ColumnList) :
    columns.oneLine.chars = onOneLine columns.chars := by
  have listed : ∀ column : ListedColumn, column.oneLine.chars = onOneLine column.chars :=
    fun column => (column.column.onOneLine_word _ _).symm
  induction columns with
  | single column => exact listed column
  | more column others ih =>
    rw [oneLine, chars, chars, listed, ih, onOneLine_append_cons rfl]

theorem Reference.chars_oneLine (reference : Reference) :
    reference.oneLine.chars = onOneLine reference.chars := by
  rw [chars, chars, onOneLine_word (by decide) (by decide), reference.table.onOneLine_word,
    onOneLine_append_cons rfl, onOneLine_append_cons rfl]
  simp only [oneLine, Spacing.oneLine, Padding.oneLine, ColumnList.chars_oneLine]
  rfl

theorem Demand.inside_oneLine (demand : Demand) :
    demand.oneLine.inside = onOneLine demand.inside := by
  cases demand with
  | primaryKey gap columns | unique gap columns =>
    rw [oneLine, inside, inside, ColumnList.chars_oneLine, onOneLine_append_cons rfl]
    rfl
  | foreignKey gap columns reference =>
    rw [oneLine, inside, inside, ColumnList.chars_oneLine, Reference.chars_oneLine,
      onOneLine_append_cons rfl]
  | check gap before column condition =>
    rw [oneLine, inside, inside, column.onOneLine_word]
    rfl

theorem Demand.chars_oneLine (demand : Demand) (gap : List Char) :
    onOneLine gap ++ demand.oneLine.chars = onOneLine (gap ++ demand.chars) := by
  have keyword : ∀ kind : ConstraintKind, kind.keyword.toList ≠ [] ∧
      kind.keyword.toList.any isLineBreak = false := by
    intro kind
    cases kind <;> decide
  obtain ⟨filled, unbroken⟩ := keyword demand.kind
  rw [chars, chars, onOneLine_word filled unbroken, onOneLine_append_cons rfl, inside_oneLine]
  cases demand <;> rfl

theorem Addition.chars_oneLine (addition : Addition) :
    addition.oneLine.chars = onOneLine addition.chars := by
  have add := onOneLine_word (show "ADD CONSTRAINT".toList ≠ [] by decide) (by decide)
  delta chars text named
  rw [add, addition.name.onOneLine_word, ← Demand.chars_oneLine]
  rfl

theorem Declaration.chars_oneLine (declaration : Declaration) :
    declaration.oneLine.chars = onOneLine declaration.chars := by
  have alter : ∀ rest, onOneLine ("ALTER TABLE".toList ++ rest) =
      "ALTER TABLE".toList ++ onOneLine rest :=
    onOneLine_word (show "ALTER TABLE".toList ≠ [] by decide) (by decide) []
  have line := alter (declaration.tableGap.chars ++ (declaration.table.chars ++ declaration.added.chars))
  rw [declaration.table.onOneLine_word, ← Addition.chars_oneLine] at line
  exact line.symm

end OneLine
end SchemaLint
