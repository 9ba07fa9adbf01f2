import SchemaLint.Phrase

/-! Scripts: statements that end at a terminator. -/
namespace SchemaLint.Script
open Text

/-- The statements of a script in their order, trimmed; blank ones are left out. -/
def statements (script : String) : List String :=
  (((pieces (· == Phrase.terminator) script.toList).map trim).filter fun piece =>
    !piece.isEmpty).map String.ofList

end SchemaLint.Script
