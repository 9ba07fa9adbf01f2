import SchemaLint.Proofs.Text.OneLine
import SchemaLint.Statement

/-! The one line of a statement. The three replacements that make it come to one
pass over the text, which shortens it by one character for each pair of a carriage
return and a line feed. -/
namespace SchemaLint
open Text

namespace Text

/-- The number of carriage returns with a line feed right after them. -/
def breakPairs (text : List Char) : Nat := (text.zip text.tail).count ('\r', '\n')

theorem breakPairs_pair (text : List Char) :
    breakPairs ('\r' :: '\n' :: text) = breakPairs text + 1 := by
  cases text <;> simp [breakPairs]

theorem breakPairs_cons {c : Char} {text : List Char} (apart : ¬ BreakAcross [c] text) :
    breakPairs (c :: text) = breakPairs text := by
  cases text with
  | nil => rfl
  | cons d text =>
    have differs : (c, d) ≠ ('\r', '\n') := by
      rintro same
      cases same
      exact apart ⟨rfl, rfl⟩
    simp [breakPairs, List.count_cons_of_ne differs]

theorem length_markBreaks (mark : Char) (text : List Char) :
    (markBreaks mark text).length + breakPairs text = text.length := by
  fun_induction markBreaks mark text with
  | case1 => rfl
  | case2 text ih =>
    simp only [List.length_cons, breakPairs_pair]
    omega
  | case3 c text single ih =>
    simp only [List.length_cons, breakPairs_cons (not_breakAcross_of_single single)]
    omega

end Text

namespace Statement

/-- The text of a statement, read once from left to right. -/
theorem ofString_onePass :
    (∀ text : String,
      (ofString text).chars = markBreaks ' ' text.toList ∧
      '\r' ∉ (ofString text).chars ∧ '\n' ∉ (ofString text).chars ∧
      ofString (ofString text).text = ofString text ∧
      (ofString text).chars.length + breakPairs text.toList = text.length) ∧
    ∀ first second : String,
      (ofString (first ++ second)).chars = (ofString first).chars ++ (ofString second).chars ↔
        ¬ BreakAcross first.toList second.toList := by
  refine ⟨?_, ?_⟩
  · intro text
    have pass : (ofString text).chars = markBreaks ' ' text.toList :=
      onOneLine_eq_markBreaks text.toList
    have unbroken : ∀ c ∈ (ofString text).chars, isLineBreak c = false := (ofString text).oneLine
    refine ⟨pass, fun member => ?_, fun member => ?_, ?_, ?_⟩
    · cases unbroken _ member
    · cases unbroken _ member
    · simp only [ofString, Statement.text, String.toList_ofList, onOneLine_onOneLine]
    · rw [pass, length_markBreaks, String.length_toList]
  · intro first second
    rw [chars_ofString, String.toList_append]
    exact onOneLine_append_iff

end Statement
end SchemaLint
