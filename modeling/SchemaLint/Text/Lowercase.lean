import SchemaLint.Text.CaseContext
import SchemaLint.Text.LetterCase

/-! Lower case of a whole text. Two letters are not lowered one to one: the
dotted capital I gives an i and a combining dot, and the capital sigma gives its
final form at the end of a word. -/
namespace SchemaLint.Text

/-- The first character that is not looked past is cased. -/
def beginsCased (text : List Char) : Bool :=
  (text.dropWhile isCaseIgnorable).head?.any isCased

/-- Lowers a text that stands after `afterCased`: whether the last character
before it that is not looked past is cased. -/
def lowercaseFrom (afterCased : Bool) : List Char → List Char
  | [] => []
  | c :: text =>
    let lowered :=
      if c = '\u0130' then ['i', '\u0307']
      else if c = '\u03A3' && afterCased && !beginsCased text then ['\u03C2']
      else [toLower c]
    lowered ++ lowercaseFrom (if isCaseIgnorable c then afterCased else isCased c) text

def lowercase (text : List Char) : List Char := lowercaseFrom false text

end SchemaLint.Text
