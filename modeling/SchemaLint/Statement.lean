import SchemaLint.Phrase
import SchemaLint.Text.LineBreak
import SchemaLint.Text.Quoted

/-! The text of a statement, or of a whole script, on one line. -/
namespace SchemaLint

structure Statement where
  chars : List Char
  oneLine : ∀ c ∈ chars, Text.isLineBreak c = false
  deriving DecidableEq

namespace Statement
open Text

/-- Puts a text on one line. -/
def ofString (text : String) : Statement :=
  ⟨onOneLine text.toList, fun _ => not_isLineBreak_of_mem_onOneLine⟩

def text (statement : Statement) : String := String.ofList statement.chars

@[simp] theorem chars_ofString (text : String) : (ofString text).chars = onOneLine text.toList := rfl

/-- The phrase occurs, beginning anywhere and ending at a gap or at the end. A
phrase without words occurs in every text. -/
def contains (statement : Statement) (phrase : String) : Bool :=
  anySuffix (Phrase.begins (words phrase.toList)) statement.chars

def containsAny (statement : Statement) (phrases : List String) : Bool :=
  phrases.any statement.contains

/-- The word after the first occurrence of the phrase that has one. -/
def nextWord? (statement : Statement) (phrase : String) : Option String :=
  match words phrase.toList with
  | [] => none
  | first :: rest =>
    (searchFirst (Phrase.wordAfter? (first :: rest)) statement.chars).map fun (_, word) =>
      String.ofList word

/-- The position of the first double quote. -/
def quotePosition? (statement : Statement) : Option Nat :=
  statement.chars.findIdx? (· == doubleQuote)

def describe (statement : Statement) : String := "StatementText(" ++ quoted statement.text ++ ")"

end Statement
end SchemaLint
