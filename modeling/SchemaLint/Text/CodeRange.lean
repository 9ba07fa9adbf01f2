/-! Sets of characters given by ascending ranges of code points. The tables of
character properties are written this way, and reading one stops at the first
range that begins past the character. -/
namespace SchemaLint.Text

/-- Membership in a table of inclusive ranges in ascending order. -/
def inRanges (code : Nat) : List (Nat × Nat) → Bool
  | [] => false
  | (first, last) :: rest =>
    if code < first then false
    else if code ≤ last then true
    else inRanges code rest

theorem exists_range_of_inRanges {code : Nat} {table : List (Nat × Nat)}
    (found : inRanges code table = true) : ∃ range ∈ table, range.1 ≤ code ∧ code ≤ range.2 := by
  induction table with
  | nil => simp [inRanges] at found
  | cons range rest ih =>
    obtain ⟨first, last⟩ := range
    rw [inRanges] at found
    split at found
    · simp at found
    · split at found
      · exact ⟨(first, last), by simp, by omega, by assumption⟩
      · obtain ⟨range, member, bounds⟩ := ih found
        exact ⟨range, List.mem_cons_of_mem _ member, bounds⟩

end SchemaLint.Text
