import SchemaLint.Text.LetterCase
import SchemaLint.Text.Search

/-! Caseless comparison. Every character stands for one letter, and two
characters are the same when they stand for the same letter. -/
namespace SchemaLint.Text

/-- Lower case characters that share their upper case with another one, each
with the letter it stands for. -/
def letterVariants : List (Char × Char) :=
  [('\u00B5', '\u03BC'), ('\u0131', 'i'), ('\u017F', 's'), ('\u0345', '\u03B9'),
   ('\u03C2', '\u03C3'), ('\u03D0', '\u03B2'), ('\u03D1', '\u03B8'), ('\u03D5', '\u03C6'),
   ('\u03D6', '\u03C0'), ('\u03F0', '\u03BA'), ('\u03F1', '\u03C1'), ('\u03F5', '\u03B5'),
   ('\u1C80', '\u0432'), ('\u1C81', '\u0434'), ('\u1C82', '\u043E'), ('\u1C83', '\u0441'),
   ('\u1C84', '\u0442'), ('\u1C85', '\u0442'), ('\u1C86', '\u044A'), ('\u1C87', '\u0463'),
   ('\u1C88', '\uA64B'), ('\u1E9B', '\u1E61'), ('\u1FBE', '\u03B9'), ('\u1FD3', '\u0390'),
   ('\u1FE3', '\u03B0'), ('\uFB06', '\uFB05')]

/-- The letter of a lower case character in a table of variants in ascending
order. -/
def plainLetter (c : Char) : List (Char × Char) → Char
  | [] => c
  | (variant, plain) :: rest =>
    if c < variant then c
    else if c = variant then plain
    else plainLetter c rest

/-- The letter that a character stands for, whatever its case. -/
def letter (c : Char) : Char := plainLetter (toLower c) letterVariants

def sameLetter (a b : Char) : Bool := letter a == letter b

theorem sameLetter_iff {a b : Char} : sameLetter a b = true ↔ letter a = letter b := by
  simp [sameLetter]

@[simp] theorem sameLetter_refl (a : Char) : sameLetter a a = true := by
  simp [sameLetter]

/-- Reads a spelling in any case and gives the text after it. -/
def readCaseless (spelling text : List Char) : Option (List Char) := readBy sameLetter spelling text

end SchemaLint.Text
