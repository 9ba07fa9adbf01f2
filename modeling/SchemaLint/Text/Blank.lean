import SchemaLint.Text.CodeRange

/-! Blank characters, and the cutting and trimming of text that rest on them. -/
namespace SchemaLint.Text

/-- Unicode white space together with the four information separators. Zero
width characters and the byte order mark are not blank. -/
def blankRanges : List (Nat × Nat) :=
  [(0x09, 0x0D), (0x1C, 0x20), (0x85, 0x85), (0xA0, 0xA0), (0x1680, 0x1680), (0x2000, 0x200A),
   (0x2028, 0x2029), (0x202F, 0x202F), (0x205F, 0x205F), (0x3000, 0x3000)]

def isBlank (c : Char) : Bool := inRanges c.toNat blankRanges

def trimStart (text : List Char) : List Char := text.dropWhile isBlank

def trimEnd (text : List Char) : List Char := (text.reverse.dropWhile isBlank).reverse

/-- The text without the blanks at its two ends. -/
def trim (text : List Char) : List Char := trimEnd (trimStart text)

/-- Reads a maximal run of blanks, at least one, and gives the text after it. -/
def readBlanks : List Char → Option (List Char)
  | [] => none
  | c :: text => if isBlank c then some (trimStart text) else none

/-- The pieces between the characters that `cut` accepts: one more than there
are such characters, empty pieces included. -/
def pieces (cut : Char → Bool) : List Char → List (List Char)
  | [] => [[]]
  | c :: rest =>
    match cut c, pieces cut rest with
    | true, found => [] :: found
    | false, [] => [[c]]
    | false, piece :: found => (c :: piece) :: found

theorem pieces_ne_nil (cut : Char → Bool) (text : List Char) : pieces cut text ≠ [] := by
  cases text with
  | nil => simp [pieces]
  | cons c rest =>
    rw [pieces]
    split <;> simp

/-- Cutting at one place leaves the two sides to be cut on their own. -/
theorem pieces_append_cons {cut : Char → Bool} {c : Char} (cuts : cut c = true)
    (left right : List Char) :
    pieces cut (left ++ c :: right) = pieces cut left ++ pieces cut right := by
  induction left with
  | nil => simp [pieces, cuts]
  | cons d left ih =>
    rw [List.cons_append, pieces, pieces, ih]
    cases cut d with
    | true => rfl
    | false =>
      obtain ⟨piece, found, same⟩ := List.exists_cons_of_ne_nil (pieces_ne_nil cut left)
      simp [same]

/-- The maximal runs of characters that are not blank. -/
def words (text : List Char) : List (List Char) :=
  (pieces isBlank text).filter fun word => !word.isEmpty

end SchemaLint.Text
