import SchemaLint.Proofs.DeclaredClauses

/-! Statements that add several constraints to one table. What is added is closed:
it holds neither the words that add the next constraint nor, if it is no foreign
key, a reference. On one line such a statement is one of its kind again. -/
namespace SchemaLint
open Text Clause

/-- A check that ends with its parenthesis and adds nothing before. -/
def Demand.Closed : Demand → Prop
  | .check _ _ column condition =>
    Ordinary column.chars ∧ [')'] <:+ condition.chars ∧
      Absent "ADD CONSTRAINT".toList (onOneLine (column.chars ++ condition.chars))
  | .primaryKey .. | .unique .. | .foreignKey .. => True

instance (demand : Demand) : Decidable demand.Closed :=
  match demand with
  | .check _ _ column condition =>
    inferInstanceAs (Decidable (Ordinary column.chars ∧ [')'] <:+ condition.chars ∧
      Absent "ADD CONSTRAINT".toList (onOneLine (column.chars ++ condition.chars))))
  | .primaryKey .. | .unique .. | .foreignKey .. => inferInstanceAs (Decidable True)

def Addition.Closed (addition : Addition) : Prop :=
  addition.demand.Closed ∧
    (addition.demand.kind ≠ .foreignKey → Absent "REFERENCES".toList addition.chars)

instance (addition : Addition) : Decidable addition.Closed :=
  inferInstanceAs (Decidable (addition.demand.Closed ∧
    (addition.demand.kind ≠ .foreignKey → Absent "REFERENCES".toList addition.chars)))

structure Alteration where
  tableGap : Spacing
  table : Identifier
  first : Addition
  others : List Addition
  closed : ∀ addition ∈ first :: others, addition.Closed

namespace Alteration

def additions (alteration : Alteration) : List Addition := alteration.first :: alteration.others

def chars (alteration : Alteration) : List Char :=
  "ALTER TABLE".toList ++ (alteration.tableGap.chars ++ (alteration.table.chars ++
    alteration.additions.flatMap Addition.chars))

end Alteration

theorem Reference.suffix_close (reference : Reference) : [')'] <:+ reference.chars := by
  delta chars
  simp only [← List.cons_append, ← List.append_assoc]
  exact List.suffix_append _ _

theorem Demand.Closed.suffix_close {demand : Demand} (closed : demand.Closed) :
    [')'] <:+ demand.chars := by
  have inside : [')'] <:+ demand.inside := by
    cases demand with
    | primaryKey gap columns | unique gap columns => exact List.suffix_append _ _
    | foreignKey gap columns reference =>
      exact reference.suffix_close.trans ((List.suffix_cons _ _).trans (List.suffix_append _ _))
    | check gap before column condition =>
      exact closed.2.1.trans ((List.suffix_append _ _).trans (List.suffix_append _ _))
  exact inside.trans ((List.suffix_cons _ _).trans
    ((List.suffix_append _ _).trans (List.suffix_append _ _)))

theorem Addition.Closed.suffix_close {addition : Addition} (closed : addition.Closed) :
    [')'] <:+ addition.chars := by
  have named : [')'] <:+ addition.named :=
    closed.1.suffix_close.trans ((List.suffix_append _ _).trans (List.suffix_append _ _))
  exact named.trans ((List.suffix_append _ _).trans
    ((List.suffix_append _ _).trans (List.suffix_append _ _)))

section OneLine

theorem Condition.suffix_close_oneLine {condition : Condition} (closed : [')'] <:+ condition.chars) :
    [')'] <:+ condition.oneLine.chars := by
  obtain ⟨body, shape⟩ := closed
  have line : onOneLine condition.chars = onOneLine body ++ [')'] := by
    rw [← shape, onOneLine_append_cons rfl]
    rfl
  exact ⟨onOneLine body, line.symm⟩

theorem Demand.Closed.oneLine {demand : Demand} (closed : demand.Closed) : demand.oneLine.Closed := by
  cases demand with
  | primaryKey | unique | foreignKey => trivial
  | check gap before column condition =>
    obtain ⟨ordinary, last, absent⟩ := closed
    have word : ∀ rest, onOneLine (column.chars ++ rest) = column.chars ++ onOneLine rest :=
      column.onOneLine_word []
    have twice : onOneLine (column.chars ++ condition.oneLine.chars) =
        onOneLine (column.chars ++ condition.chars) := by
      rw [word, word]
      exact congrArg _ (onOneLine_onOneLine _)
    exact ⟨ordinary, Condition.suffix_close_oneLine last, twice ▸ absent⟩

theorem Addition.Closed.oneLine {addition : Addition} (closed : addition.Closed) :
    addition.oneLine.Closed := by
  refine ⟨closed.1.oneLine, ?_⟩
  intro other
  have same : addition.oneLine.demand.kind = addition.demand.kind := by
    rw [Addition.oneLine]
    cases addition.demand <;> rfl
  rw [addition.chars_oneLine]
  intro spelled spells inside
  have free : StopFree "REFERENCES".toList := by decide
  exact closed.2 (same ▸ other) spelled spells
    (infix_of_infix_onOneLine (spells.solid free.solid) inside)

theorem Addition.onOneLine_flatMap {additions : List Addition}
    (closed : ∀ addition ∈ additions, addition.Closed) :
    onOneLine (additions.flatMap Addition.chars) =
      (additions.map Addition.oneLine).flatMap Addition.chars := by
  induction additions with
  | nil => rfl
  | cons addition rest ih =>
    have apart : ¬ BreakAcross addition.chars (rest.flatMap Addition.chars) := by
      obtain ⟨body, shape⟩ := (closed addition List.mem_cons_self).suffix_close
      rintro ⟨last, -⟩
      rw [← shape, List.getLast?_concat] at last
      cases last
    rw [List.flatMap_cons, List.map_cons, List.flatMap_cons, onOneLine_append apart,
      addition.chars_oneLine, ih fun later member => closed later (List.mem_cons_of_mem _ member)]

namespace Alteration

def oneLine (alteration : Alteration) : Alteration where
  tableGap := alteration.tableGap.oneLine
  table := alteration.table
  first := alteration.first.oneLine
  others := alteration.others.map Addition.oneLine
  closed := by
    intro addition member
    rw [← List.map_cons] at member
    obtain ⟨added, present, rfl⟩ := List.mem_map.mp member
    exact (alteration.closed added present).oneLine

theorem chars_oneLine (alteration : Alteration) :
    alteration.oneLine.chars = onOneLine alteration.chars := by
  have alter : ∀ rest, onOneLine ("ALTER TABLE".toList ++ rest) =
      "ALTER TABLE".toList ++ onOneLine rest :=
    onOneLine_word (show "ALTER TABLE".toList ≠ [] by decide) (by decide) []
  have added : onOneLine (alteration.additions.flatMap Addition.chars) =
      (alteration.additions.map Addition.oneLine).flatMap Addition.chars :=
    Addition.onOneLine_flatMap alteration.closed
  have line := alter (alteration.tableGap.chars ++ (alteration.table.chars ++
    alteration.additions.flatMap Addition.chars))
  rw [alteration.table.onOneLine_word, added] at line
  exact line.symm

end Alteration
end OneLine
end SchemaLint
