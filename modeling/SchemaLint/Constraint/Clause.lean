import SchemaLint.Text.Blank
import SchemaLint.Text.Caseless

/-! Constraint clauses of ALTER TABLE statements. A clause is looked for as a
whole: its table, name and column are the texts between its keywords, each as
long as the rest of the clause allows, decided from left to right. -/
namespace SchemaLint
open Text

inductive ConstraintKind where
  | check
  | foreignKey
  | primaryKey
  | uniqueKey
  | notNull
  deriving DecidableEq, Repr

namespace ConstraintKind

/-- The keyword before the opening parenthesis. -/
def keyword : ConstraintKind → String
  | .check | .notNull => "CHECK"
  | .foreignKey => "FOREIGN KEY"
  | .primaryKey => "PRIMARY KEY"
  | .uniqueKey => "UNIQUE"

/-- How a constraint name begins for the clause to be of this kind. A check that
forbids nulls is told from other checks by its name alone. -/
def nameStart : ConstraintKind → String
  | .check => "CK_"
  | .notNull => "NN_"
  | .foreignKey | .primaryKey | .uniqueKey => ""

end ConstraintKind

/-- The captured texts, blanks at their ends included. -/
structure Clause where
  table : List Char
  name : List Char
  column : List Char
  deriving DecidableEq, Repr

namespace Clause

/-- A character that can stand in a column of a column list. -/
def isColumnChar (c : Char) : Bool := !isBlank c && c != ',' && c != ')'

/-- The first operand of a condition. It is followed by a blank. -/
def readOperand (text : List Char) : Option (List Char) :=
  match (trimStart text).takeWhile (!isBlank ·), (trimStart text).dropWhile (!isBlank ·) with
  | [], _ => none
  | _, [] => none
  | operand, _ :: _ => some operand

/-- The first column of a column list. -/
def readFirstColumn (text : List Char) : Option (List Char) :=
  match (trimStart text).takeWhile isColumnChar with
  | [] => none
  | column => some column

/-- The column that closes a column list which is followed, at any distance, by
REFERENCES. -/
def readClosingColumn (text : List Char) : Option (List Char) :=
  match (trimStart text).takeWhile isColumnChar,
      trimStart ((trimStart text).dropWhile isColumnChar) with
  | [], _ => none
  | column, ')' :: rest =>
    if anySuffix (fun left => (readCaseless "REFERENCES".toList left).isSome) rest then some column
    else none
  | _, _ => none

/-- Reads a closing column right after a comma. -/
def readAfterComma : List Char → Option (List Char)
  | ',' :: rest => readClosingColumn rest
  | _ => none

/-- The closing column after the last comma that has one, or else the only
column. -/
def readLastColumn (text : List Char) : Option (List Char) :=
  match longestRun (fun _ => true) readAfterComma text with
  | some (_, column) => some column
  | none => readClosingColumn text

/-- The column of a clause, read after the opening parenthesis. -/
def readColumn : ConstraintKind → List Char → Option (List Char)
  | .check, text | .notNull, text => readOperand text
  | .primaryKey, text | .uniqueKey, text => readFirstColumn text
  | .foreignKey, text => readLastColumn text

/-- Reads blanks, the keyword and an opening parenthesis, and answers the column. -/
def readDefinition (kind : ConstraintKind) (text : List Char) : Option (List Char) := do
  let rest ← readBlanks text
  let rest ← readCaseless kind.keyword.toList rest
  match trimStart rest with
  | '(' :: rest => readColumn kind rest
  | _ => none

/-- Answers the name that stands here and the column after it. -/
def readName (kind : ConstraintKind) (text : List Char) : Option (List Char × List Char) := do
  let rest ← readCaseless kind.nameStart.toList text
  let (tail, column) ← longestRun (fun _ => true) (readDefinition kind) rest
  return (text.take kind.nameStart.length ++ tail, column)

/-- Answers the name and column of an ADD CONSTRAINT that stands here. As many
of the blanks after it as possible are left out of the name. -/
def readAddition (kind : ConstraintKind) (text : List Char) : Option (List Char × List Char) := do
  let rest ← readCaseless "ADD CONSTRAINT".toList text
  match rest with
  | [] => none
  | c :: rest =>
    if isBlank c then (longestRun isBlank (readName kind) rest).map fun (_, found) => found
    else none

/-- The clause of an ALTER TABLE that stands here. -/
def read (kind : ConstraintKind) (text : List Char) : Option Clause := do
  let rest ← readCaseless "ALTER TABLE".toList text
  let (table, name, column) ← longestRun (fun _ => true) (readAddition kind) rest
  return ⟨table, name, column⟩

/-- The first clause of a kind, with the position where it begins. -/
def find? (kind : ConstraintKind) (text : List Char) : Option (Nat × Clause) :=
  searchFirst (read kind) text

end Clause
end SchemaLint
