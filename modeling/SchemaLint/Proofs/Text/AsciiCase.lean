import Mathlib.Data.List.Forall2
import SchemaLint.Text.Blank
import SchemaLint.Text.Caseless
import SchemaLint.Text.Lowercase

/-! Texts in which plain letters change their case. A question about characters
that has one answer for each of the 26 letters does not see the change, and
neither does the lower case of a whole text. -/
namespace SchemaLint.Text

/-- The same character, or the same ASCII letter in the other case. -/
def CaseVariant (c d : Char) : Prop := c.toLower = d.toLower

instance (c d : Char) : Decidable (CaseVariant c d) := inferInstanceAs (Decidable (_ = _))

namespace CaseVariant

variable {β : Type} {f : Char → β} {c d : Char}

/-- What has one answer for both cases of a letter has one for all variants. -/
theorem apply_eq
    (blind : ∀ code < 26, f (Char.ofNat (65 + code)).toLower = f (Char.ofNat (65 + code)))
    (variant : CaseVariant c d) : f c = f d := by
  have lowered : ∀ c : Char, f c.toLower = f c := by
    intro c
    by_cases capital : 65 ≤ c.toNat ∧ c.toNat ≤ 90
    · obtain ⟨code, place⟩ := Nat.exists_eq_add_of_le capital.1
      have same := blind code (by omega)
      rwa [← place, Char.ofNat_toNat] at same
    · have unchanged : c.toLower = c := dif_neg capital
      rw [unchanged]
  rw [← lowered c, ← lowered d, show c.toLower = d.toLower from variant]

theorem sameLetter (variant : CaseVariant c d) : sameLetter c d = true :=
  sameLetter_iff.mpr (variant.apply_eq (by decide +kernel))

theorem toLower_eq (variant : CaseVariant c d) : toLower c = toLower d :=
  variant.apply_eq (by decide +kernel)

theorem isCased_eq (variant : CaseVariant c d) : isCased c = isCased d :=
  variant.apply_eq (by decide +kernel)

theorem isCaseIgnorable_eq (variant : CaseVariant c d) : isCaseIgnorable c = isCaseIgnorable d :=
  variant.apply_eq (by decide +kernel)

/-- Both variants are the mark or neither is, if the mark is no letter. -/
theorem eq_iff {mark : Char}
    (unlettered : ∀ code < 26, decide ((Char.ofNat (65 + code)).toLower = mark) =
      decide (Char.ofNat (65 + code) = mark))
    (variant : CaseVariant c d) : c = mark ↔ d = mark :=
  decide_eq_decide.mp (variant.apply_eq (f := fun c => decide (c = mark)) unlettered)

end CaseVariant

section Lowercase

variable {left right : List Char}

theorem beginsCased_congr (variant : List.Forall₂ CaseVariant left right) :
    beginsCased left = beginsCased right := by
  induction variant with
  | nil => rfl
  | @cons c d left right first _ ih =>
    cases ignored : isCaseIgnorable d with
    | true =>
      have other : isCaseIgnorable c = true := first.isCaseIgnorable_eq.trans ignored
      rwa [beginsCased, beginsCased, List.dropWhile_cons_of_pos other,
        List.dropWhile_cons_of_pos ignored]
    | false =>
      have other : isCaseIgnorable c = false := first.isCaseIgnorable_eq.trans ignored
      rw [beginsCased, beginsCased, List.dropWhile_cons_of_neg (by simp [other]),
        List.dropWhile_cons_of_neg (by simp [ignored])]
      exact first.isCased_eq

theorem lowercaseFrom_congr (variant : List.Forall₂ CaseVariant left right) (afterCased : Bool) :
    lowercaseFrom afterCased left = lowercaseFrom afterCased right := by
  induction variant generalizing afterCased with
  | nil => rfl
  | @cons c d left right first rest ih =>
    have dotted : c = '\u0130' ↔ d = '\u0130' := first.eq_iff (by decide +kernel)
    have sigma : c = '\u03A3' ↔ d = '\u03A3' := first.eq_iff (by decide +kernel)
    simp only [lowercaseFrom, dotted, sigma, first.toLower_eq, first.isCased_eq,
      first.isCaseIgnorable_eq, beginsCased_congr rest, ih]

theorem lowercase_congr (variant : List.Forall₂ CaseVariant left right) :
    lowercase left = lowercase right :=
  lowercaseFrom_congr variant false

end Lowercase
end SchemaLint.Text
