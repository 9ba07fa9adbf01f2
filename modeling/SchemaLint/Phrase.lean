import SchemaLint.Text.Blank
import SchemaLint.Text.Caseless

/-! Keyword phrases. A phrase is read word by word in any case. Between its words
stand blanks; where statements may meet, a lone terminator counts as a gap too. -/
namespace SchemaLint.Phrase
open Text

/-- The character that ends a statement. -/
def terminator : Char := '/'

/-- Reads blanks or a single terminator. -/
def readGap : List Char → Option (List Char)
  | [] => none
  | c :: text => if c = terminator then some text else readBlanks (c :: text)

/-- The words are read here with a gap after each; the last one may end the text
instead. -/
def begins : List (List Char) → List Char → Bool
  | [], _ => true
  | word :: words, text =>
    match readCaseless word text with
    | none => false
    | some [] => words.isEmpty
    | some rest => (readGap rest).any (begins words)

/-- The run of characters without blanks that follows the words, which are read
here with blanks after each. -/
def wordAfter? : List (List Char) → List Char → Option (List Char)
  | [], text =>
    match text.takeWhile (!isBlank ·) with
    | [] => none
    | word => some word
  | word :: words, text => ((readCaseless word text).bind readBlanks).bind (wordAfter? words)

end SchemaLint.Phrase
