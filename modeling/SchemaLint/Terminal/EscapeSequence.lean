import SchemaLint.Text.Search

/-! Escape sequences that style the text on a terminal. -/
namespace SchemaLint.Terminal
open Text

def escape : Char := '\x1B'

def isParameter (c : Char) : Bool := 0x30 ≤ c.toNat && c.toNat ≤ 0x3F

def isIntermediate (c : Char) : Bool := 0x20 ≤ c.toNat && c.toNat ≤ 0x2F

def isFinal (c : Char) : Bool := 0x40 ≤ c.toNat && c.toNat ≤ 0x7E

/-- The number of characters of the sequence that stands here: the introducer,
parameters, intermediates and one final character. -/
def sequenceLength? : List Char → Option Nat
  | c :: '[' :: text =>
    if c = escape then
      let parameters := text.takeWhile isParameter
      let afterParameters := text.dropWhile isParameter
      let intermediates := afterParameters.takeWhile isIntermediate
      match afterParameters.dropWhile isIntermediate with
      | last :: _ =>
        if isFinal last then some (parameters.length + intermediates.length + 3) else none
      | [] => none
    else none
  | _ => none

/-- The text without its escape sequences. -/
def stripEscapes (text : List Char) : List Char :=
  substitute (fun left => (sequenceLength? left).map fun length => (length - 1, [])) text

/-- The sequence with one numeric parameter that selects a style. -/
def style (parameter : String) : String := String.ofList [escape, '['] ++ parameter ++ "m"

end SchemaLint.Terminal
