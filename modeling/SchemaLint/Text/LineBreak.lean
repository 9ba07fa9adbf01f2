import SchemaLint.Text.Search

/-! Line breaks: a carriage return with a line feed, a line feed, or a carriage
return. -/
namespace SchemaLint.Text

def isLineBreak (c : Char) : Bool := c == '\r' || c == '\n'

/-- The text on one line: each kind of line break in turn gives way to a space. -/
def onOneLine (text : List Char) : List Char :=
  replaceAll ['\r'] [' '] (replaceAll ['\n'] [' '] (replaceAll ['\r', '\n'] [' '] text))

theorem not_isLineBreak_of_mem_onOneLine {text : List Char} {c : Char}
    (member : c ∈ onOneLine text) : isLineBreak c = false := by
  simp only [onOneLine, replaceAll_singleton, List.mem_map] at member
  obtain ⟨d, ⟨e, -, rfl⟩, rfl⟩ := member
  by_cases feed : e = '\n'
  · subst feed
    decide
  · by_cases ret : e = '\r'
    · subst ret
      decide
    · simp [isLineBreak, feed, ret]

/-- The text read once from left to right with `mark` for every line break. -/
def markBreaks (mark : Char) : List Char → List Char
  | [] => []
  | '\r' :: '\n' :: text => mark :: markBreaks mark text
  | c :: text => (if isLineBreak c then mark else c) :: markBreaks mark text

end SchemaLint.Text
