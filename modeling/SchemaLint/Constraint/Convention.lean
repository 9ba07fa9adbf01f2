import SchemaLint.Constraint.Clause

/-! How the constraints of each kind are to be named. -/
namespace SchemaLint
open Text

structure NamingConvention where
  kind : ConstraintKind
  label : String
  /-- The expected name, with placeholders for table and column. -/
  format : String
  deriving DecidableEq, Repr

namespace NamingConvention

def tablePlaceholder : String := "<TABLE_NAME>"

def columnPlaceholder : String := "<COLUMN_NAME>"

/-- The format with its first table placeholder and then, in what this gives,
the first column placeholder filled in. -/
def expectedName (convention : NamingConvention) (table column : String) : String :=
  String.ofList (replaceFirst columnPlaceholder.toList column.toList
    (replaceFirst tablePlaceholder.toList table.toList convention.format.toList))

def standard : List NamingConvention :=
  [⟨.check, "Check constraint", "CK_<TABLE_NAME>_<COLUMN_NAME>"⟩,
   ⟨.foreignKey, "Foreign key constraint", "FK_<TABLE_NAME>_<COLUMN_NAME>"⟩,
   ⟨.primaryKey, "Primary key constraint", "PK_<TABLE_NAME>"⟩,
   ⟨.uniqueKey, "Unique key constraint", "UQ_<TABLE_NAME>_<COLUMN_NAME>"⟩,
   ⟨.notNull, "NOT NULL constraint", "NN_<TABLE_NAME>_<COLUMN_NAME>"⟩]

end NamingConvention
end SchemaLint
