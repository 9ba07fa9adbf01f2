import SchemaLint.Proofs.ClauseLayout

/-! The naming conventions that a statement breaks, and its layout. They depend on
the words alone as long as the gaps within keywords stay and no name that is judged
has gaps of its own. -/
namespace SchemaLint
open Text

/-- The convention that is broken. -/
def Violation.convention? : Violation → Option NamingConvention
  | .misnamed convention _ _ => some convention
  | _ => none

theorem NamingConvention.expectedName_reflowed (convention : NamingConvention)
    {table other : List Char} (tables : Reflowed table other) (column : String) :
    Reflowed (convention.expectedName (String.ofList table) column).toList
      (convention.expectedName (String.ofList other) column).toList := by
  have solid : Clause.StopFree columnPlaceholder.toList := by decide
  have filled := tables.replaceFirst_left tablePlaceholder.toList convention.format.toList
  rw [expectedName, expectedName, String.toList_ofList, String.toList_ofList, String.toList_ofList,
    String.toList_ofList]
  exact filled.replaceFirst_right (p := '<') solid.solid column.toList

namespace Check

/-- No name that is judged has a gap in it. -/
def OneWordNames (conventions : List NamingConvention) (statement : Statement) : Prop :=
  ∀ convention ∈ conventions, ∀ position clause,
    Clause.find? convention.kind statement.chars = some (position, clause) →
      ∀ c ∈ trim clause.name, isBlank c = false

theorem oneWordNames_iff {conventions : List NamingConvention} {statement : Statement} :
    OneWordNames conventions statement ↔ conventions.all (fun convention =>
      (Clause.find? convention.kind statement.chars).all fun (_, clause) =>
        (trim clause.name).all fun c => !isBlank c) = true := by
  simp [OneWordNames, Option.all_eq_true]

instance (conventions : List NamingConvention) (statement : Statement) :
    Decidable (OneWordNames conventions statement) :=
  decidable_of_iff _ oneWordNames_iff.symm

variable {left right : Statement}

theorem misnamed?_eq (statement : Statement) (convention : NamingConvention) :
    (misnamed? statement convention).map Violation.convention? =
      ((Clause.find? convention.kind statement.chars).map Prod.snd).bind fun clause =>
        if occursIn (trim clause.name) (convention.expectedName (String.ofList (trim clause.table))
          (String.ofList (trim clause.column))).toList then none else some (some convention) := by
  rw [misnamed?]
  cases Clause.find? convention.kind statement.chars with
  | none => rfl
  | some found =>
    dsimp only [judge?, Option.map_some, Option.bind_some]
    split <;> rfl

/-- The clauses that are found have the same words, and a name without gaps is
the same in both. -/
theorem misnamed?_refilled {convention : NamingConvention}
    (refilled : Clause.Refilled [] left.chars right.chars)
    (single : ∀ position clause,
      Clause.find? convention.kind left.chars = some (position, clause) →
        ∀ c ∈ trim clause.name, isBlank c = false) :
    (misnamed? left convention).map Violation.convention? =
      (misnamed? right convention).map Violation.convention? := by
  have clauses := Clause.find?_refilled convention.kind refilled
  have solid : ∀ clause, (Clause.find? convention.kind left.chars).map Prod.snd = some clause →
      ∀ c ∈ trim clause.name, isBlank c = false := by
    intro clause searched
    obtain ⟨⟨position, _⟩, found, rfl⟩ := Option.map_eq_some_iff.mp searched
    exact single position _ found
  rw [misnamed?_eq, misnamed?_eq]
  generalize (Clause.find? convention.kind left.chars).map Prod.snd = found,
    (Clause.find? convention.kind right.chars).map Prod.snd = other at clauses solid ⊢
  cases clauses with
  | none => rfl
  | @some clause other same =>
    have word := solid clause rfl
    have name : trim clause.name = trim other.name := same.name.trim.eq_of_solid word
    have expected := convention.expectedName_reflowed same.table.trim
      (String.ofList (trim clause.column))
    rw [Option.bind_some, Option.bind_some, expected.occursIn_eq word, name, same.column]

theorem misnamed_refilled (conventions : List NamingConvention)
    (refilled : Clause.Refilled [] left.chars right.chars)
    (single : OneWordNames conventions left) :
    (misnamed conventions left).map Violation.convention? =
      (misnamed conventions right).map Violation.convention? := by
  rw [misnamed_eq, misnamed_eq, List.map_filterMap, List.map_filterMap]
  apply List.filterMap_congr
  intro convention member
  exact misnamed?_refilled refilled (single convention member)

theorem misnamed_refilled_unique :
    (misnamed NamingConvention.standard
        (.ofString "ALTER TABLE t ADD CONSTRAINT b UNIQUE (a)")).map Violation.convention? =
      (misnamed NamingConvention.standard
        (.ofString "ALTER TABLE t\r\n\tADD CONSTRAINT b\n UNIQUE\n(a)")).map
          Violation.convention? := by
  have chars : (Statement.ofString "ALTER TABLE t ADD CONSTRAINT b UNIQUE (a)").chars =
      "ALTER".toList ++ (" ".toList ++ ("TABLE".toList ++ (" ".toList ++ ("t".toList ++ (" ".toList ++
        ("ADD".toList ++ (" ".toList ++ ("CONSTRAINT".toList ++ (" ".toList ++ ("b".toList ++
        (" ".toList ++ ("UNIQUE".toList ++ (" ".toList ++ "(a)".toList))))))))))))) := by
    decide +kernel
  have otherChars : (Statement.ofString "ALTER TABLE t\r\n\tADD CONSTRAINT b\n UNIQUE\n(a)").chars =
      "ALTER".toList ++ (" ".toList ++ ("TABLE".toList ++ (" ".toList ++ ("t".toList ++
        (" \t".toList ++ ("ADD".toList ++ (" ".toList ++ ("CONSTRAINT".toList ++ (" ".toList ++
        ("b".toList ++ ("  ".toList ++ ("UNIQUE".toList ++ (" ".toList ++ "(a)".toList))))))))))))) := by
    decide +kernel
  refine misnamed_refilled _ ?_ (by decide +kernel)
  rw [chars, otherChars]
  exact .token (by decide +kernel) <| .token (by decide +kernel) <| .token (by decide +kernel) <|
    .token (by decide +kernel) <| .token (by decide +kernel) <| .token (by decide +kernel) <|
    .token (by decide +kernel) <| .char rfl rfl <| .char rfl rfl <| .char rfl rfl .done

/-- A line break within a keyword hides a bad name. -/
theorem misnamed_not_reflowed :
    Reflowed (Statement.ofString "ALTER TABLE t ADD CONSTRAINT bad PRIMARY KEY (a)").chars
        (Statement.ofString "ALTER TABLE t ADD CONSTRAINT bad PRIMARY\n    KEY (a)").chars ∧
      (misnamed NamingConvention.standard
          (.ofString "ALTER TABLE t ADD CONSTRAINT bad PRIMARY KEY (a)")).map Violation.convention? ≠
        (misnamed NamingConvention.standard
          (.ofString "ALTER TABLE t ADD CONSTRAINT bad PRIMARY\n    KEY (a)")).map
            Violation.convention? := by
  have chars : (Statement.ofString "ALTER TABLE t ADD CONSTRAINT bad PRIMARY KEY (a)").chars =
      "ALTER TABLE t ADD CONSTRAINT bad PRIMARY".toList ++ (" ".toList ++ "KEY (a)".toList) := by
    decide +kernel
  have otherChars :
      (Statement.ofString "ALTER TABLE t ADD CONSTRAINT bad PRIMARY\n    KEY (a)").chars =
        "ALTER TABLE t ADD CONSTRAINT bad PRIMARY".toList ++ ("     ".toList ++ "KEY (a)".toList) := by
    decide +kernel
  refine ⟨?_, by decide +kernel⟩
  rw [chars, otherChars]
  have blank : ∀ {run : List Char}, run.all isBlank = true → Blank run := List.all_eq_true.mp
  exact (relaid_refl _).append ((relaid_refl _).pad ⟨by decide, blank rfl⟩ ⟨by decide, blank rfl⟩)

end Check
end SchemaLint
