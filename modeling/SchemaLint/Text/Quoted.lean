import SchemaLint.Text.Printable

/-! Quoted text on one line. The quotation mark is the apostrophe, unless the
text holds an apostrophe and no double quote. -/
namespace SchemaLint.Text

def apostrophe : Char := '\x27'

def doubleQuote : Char := '\x22'

def backslash : Char := '\x5C'

/-- The code point in lower case hexadecimal with at least `width` digits. -/
def hexDigits (width : Nat) (c : Char) : List Char :=
  (Nat.toDigits 16 c.toNat).leftpad width '0'

/-- A character inside quotation marks. What cannot be shown as itself is given
by a short name or by its code point. -/
def escaped (mark c : Char) : List Char :=
  if c = backslash || c = mark then [backslash, c]
  else if c = '\t' then [backslash, 't']
  else if c = '\n' then [backslash, 'n']
  else if c = '\r' then [backslash, 'r']
  else if isPrintable c then [c]
  else if c.toNat < 0x100 then backslash :: 'x' :: hexDigits 2 c
  else if c.toNat < 0x10000 then backslash :: 'u' :: hexDigits 4 c
  else backslash :: 'U' :: hexDigits 8 c

def quotationMark (text : List Char) : Char :=
  if text.contains apostrophe && !text.contains doubleQuote then doubleQuote else apostrophe

def quote (text : List Char) : List Char :=
  let mark := quotationMark text
  mark :: (text.flatMap (escaped mark) ++ [mark])

def quoted (text : String) : String := String.ofList (quote text.toList)

end SchemaLint.Text
