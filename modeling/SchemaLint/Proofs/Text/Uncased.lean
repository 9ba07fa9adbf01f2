import SchemaLint.Text.Blank
import SchemaLint.Text.Caseless

/-! Characters without case. A range of code points that neither the table of
lower case nor the table of variants touches holds characters that stand for
themselves and for which nothing else stands. -/
namespace SchemaLint.Text

/-- No code point from `first` to `last` is in the range. -/
def Apart (range : Nat × Nat) (first last : Int) : Prop := last < range.1 ∨ range.2 < first

instance (range : Nat × Nat) (first last : Int) : Decidable (Apart range first last) :=
  inferInstanceAs (Decidable (_ ∨ _))

/-- The tables neither change a character of the range nor put one in. -/
def Uncased (range : Nat × Nat) : Prop :=
  0 < range.1 ∧
  (∀ upper ∈ caseRanges, Apart range upper.first upper.last ∧
    Apart range (upper.first + upper.shift) (upper.last + upper.shift)) ∧
  ∀ variant ∈ letterVariants, Apart range variant.1.toNat variant.1.toNat ∧
    Apart range variant.2.toNat variant.2.toNat

instance (range : Nat × Nat) : Decidable (Uncased range) :=
  inferInstanceAs (Decidable (_ ∧ _ ∧ _))

def Within (range : Nat × Nat) (c : Char) : Prop := range.1 ≤ c.toNat ∧ c.toNat ≤ range.2

theorem toNat_ofNat_eq_or (code : Nat) :
    (Char.ofNat code).toNat = code ∨ (Char.ofNat code).toNat = 0 := by
  by_cases valid : code.isValidChar
  · left
    have plain : Char.ofNat code = Char.ofNatAux code valid := dif_pos valid
    rw [plain]
    rfl
  · right
    simp [Char.ofNat, valid]

theorem CaseRange.bounds {range : CaseRange} {code : Nat} (holds : range.holds code = true) :
    range.first ≤ code ∧ code ≤ range.last := by
  simp only [CaseRange.holds, Bool.and_eq_true, decide_eq_true_eq] at holds
  exact holds.1

theorem plainLetter_eq_or_mem (c : Char) (table : List (Char × Char)) :
    plainLetter c table = c ∨
      ∃ variant ∈ table, c = variant.1 ∧ plainLetter c table = variant.2 := by
  induction table with
  | nil => exact Or.inl rfl
  | cons entry rest ih =>
    obtain ⟨variant, plain⟩ := entry
    rw [plainLetter]
    split
    · exact Or.inl rfl
    · split
      · rename_i same
        exact Or.inr ⟨(variant, plain), List.mem_cons_self, same, rfl⟩
      · rcases ih with kept | ⟨entry, member, same⟩
        · exact Or.inl kept
        · exact Or.inr ⟨entry, List.mem_cons_of_mem _ member, same⟩

variable {range : Nat × Nat}

theorem toLower_eq_self_of_within (uncased : Uncased range) {c : Char} (within : Within range c) :
    toLower c = c := by
  rw [toLower]
  split
  · rename_i upper found
    obtain ⟨member, holds⟩ := caseRange?_mem found
    have bounds := upper.bounds holds
    have apart := (uncased.2.1 upper member).1
    obtain ⟨low, high⟩ := within
    rcases apart with below | above <;> omega
  · rfl

theorem toLower_eq_self_of_lower_within (uncased : Uncased range) {c : Char}
    (within : Within range (toLower c)) : toLower c = c := by
  rw [toLower] at within ⊢
  split at within
  · rename_i upper found
    obtain ⟨member, holds⟩ := caseRange?_mem found
    have bounds := upper.bounds holds
    have apart := (uncased.2.1 upper member).2
    have positive := uncased.1
    obtain ⟨low, high⟩ := within
    exfalso
    rcases toNat_ofNat_eq_or (c.toNat + upper.shift).toNat with same | zero
    · rw [same] at low high
      rcases apart with below | above <;> omega
    · omega
  · rfl

theorem plainLetter_eq_self_of_within (uncased : Uncased range) {c : Char}
    (within : Within range c) : plainLetter c letterVariants = c := by
  rcases plainLetter_eq_or_mem c letterVariants with kept | ⟨variant, member, same, -⟩
  · exact kept
  · have apart := (uncased.2.2 variant member).1
    rw [← same] at apart
    obtain ⟨low, high⟩ := within
    exfalso
    rcases apart with below | above <;> omega

theorem plainLetter_eq_self_of_plain_within (uncased : Uncased range) {c : Char}
    (within : Within range (plainLetter c letterVariants)) : plainLetter c letterVariants = c := by
  rcases plainLetter_eq_or_mem c letterVariants with kept | ⟨variant, member, -, same⟩
  · exact kept
  · have apart := (uncased.2.2 variant member).2
    rw [← same] at apart
    obtain ⟨low, high⟩ := within
    exfalso
    rcases apart with below | above <;> omega

/-- Only the character itself is the same letter as a character without case. -/
theorem eq_of_sameLetter (uncased : Uncased range) {c d : Char} (within : Within range d)
    (same : sameLetter c d = true) : c = d := by
  have letters := sameLetter_iff.mp same
  have own : letter d = d := by
    rw [letter, toLower_eq_self_of_within uncased within,
      plainLetter_eq_self_of_within uncased within]
  rw [own, letter] at letters
  have kept := plainLetter_eq_self_of_plain_within uncased (letters ▸ within)
  rw [kept] at letters
  have lowered := toLower_eq_self_of_lower_within uncased (letters ▸ within)
  exact lowered.symm.trans letters

theorem uncased_blankRanges : ∀ range ∈ blankRanges, Uncased range := by decide +kernel

theorem eq_of_sameLetter_blank {c d : Char} (blank : isBlank d = true)
    (same : sameLetter c d = true) : c = d := by
  obtain ⟨range, member, within⟩ := exists_range_of_inRanges blank
  exact eq_of_sameLetter (uncased_blankRanges range member) within same

end SchemaLint.Text
