import SchemaLint.Proofs.PhraseLayout
import SchemaLint.Proofs.ScriptContext
import SchemaLint.Proofs.Text.AsciiCase

/-! The rules that look for keywords see neither the layout of a text nor the case
of its letters: they report the same for a statement and a script as for any of
their variants. -/
namespace SchemaLint
open Text

/-- The second text has other blanks where the first has blanks, and some of its
letters in the other case. -/
abbrev Variant (left right : List Char) : Prop := Relaid CaseVariant left right

theorem Variant.word {word other left right : List Char}
    (same : word.map Char.toLower = other.map Char.toLower)
    (solid : word.all (fun c => !isBlank c) = true) (rest : Variant left right) :
    Variant (word ++ left) (other ++ right) := by
  apply Relaid.word _ _ rest
  · rwa [← List.forall₂_eq_eq_eq, List.forall₂_map_left_iff, List.forall₂_map_right_iff] at same
  · simpa using solid

theorem Variant.blanks {run other left right : List Char} (filled : (run.isEmpty || other.isEmpty) = false)
    (blank : (run ++ other).all isBlank = true) (rest : Variant left right) :
    Variant (run ++ left) (other ++ right) := by
  rw [Bool.or_eq_false_iff, List.isEmpty_eq_false_iff, List.isEmpty_eq_false_iff] at filled
  rw [List.all_append, Bool.and_eq_true, List.all_eq_true, List.all_eq_true] at blank
  exact Relaid.pad ⟨filled.1, blank.1⟩ ⟨filled.2, blank.2⟩ rest

variable {left right : Statement}

/-- The messages that report the violations have the same wording. -/
def Violation.SameRemark (violation other : Violation) : Prop :=
  violation.remark? = other.remark?

/-- A double quote in one text is one in the other, if not at the same position. -/
theorem Statement.quotePosition?_variant (variant : Variant left.chars right.chars) :
    Option.Rel (fun _ _ => True) left.quotePosition? right.quotePosition? := by
  have quoted : left.quotePosition?.isSome = right.quotePosition?.isSome := by
    rw [quotePosition?, quotePosition?, List.findIdx?_isSome, List.findIdx?_isSome]
    apply variant.any
    · intro b blank
      rw [beq_eq_false_iff_ne]
      rintro rfl
      cases blank
    · intro c d alike
      exact alike.apply_eq (f := fun c => c == doubleQuote) (by decide +kernel)
  generalize left.quotePosition? = found, right.quotePosition? = other at quoted ⊢
  cases found with
  | none =>
    cases other with
    | none => exact .none
    | some => cases quoted
  | some =>
    cases other with
    | none => cases quoted
    | some => exact .some trivial

namespace Check

theorem tablespace?_variant (variant : Variant left.chars right.chars) (keyword : String)
    (allowed : List String) : tablespace? keyword allowed left = tablespace? keyword allowed right := by
  have contains := Statement.contains_relaid CaseVariant.sameLetter variant
  have containsAny : left.containsAny allowed = right.containsAny allowed := by
    rw [Statement.containsAny, Statement.containsAny, funext contains]
  rw [tablespace?, tablespace?, contains, contains, containsAny]

theorem hasPrefix_variant {name other : String}
    (variant : List.Forall₂ CaseVariant name.toList other.toList) (start : String) :
    hasPrefix start name = hasPrefix start other := by
  rw [hasPrefix, hasPrefix, lowercase_congr variant]

theorem temporary?_variant (variant : Variant left.chars right.chars) (start : String) :
    Option.Rel Violation.SameRemark (temporary? start left) (temporary? start right) := by
  have word := Statement.nextWord?_relaid CaseVariant.sameLetter variant "create temporary table"
  rw [temporary?, temporary?, Statement.contains_relaid CaseVariant.sameLetter variant]
  generalize left.nextWord? "create temporary table" = name,
    right.nextWord? "create temporary table" = other at word ⊢
  split
  · cases word with
    | none => exact .none
    | some alike =>
      dsimp only
      rw [hasPrefix_variant alike]
      split
      · exact .none
      · exact .some rfl
  · exact .none

/-- The name that is dropped may be spelled as in either statement. -/
theorem contains_drop_variant {script other : Statement} (scripts : Variant script.chars other.chars)
    {name otherName : String} (found : left.nextWord? "create table" = some name)
    (otherFound : right.nextWord? "create table" = some otherName)
    (alike : List.Forall₂ CaseVariant name.toList otherName.toList) :
    script.contains ("drop table " ++ name) = other.contains ("drop table " ++ otherName) := by
  obtain ⟨filled, solid⟩ := Statement.nextWord?_eq_some found
  obtain ⟨otherFilled, otherSolid⟩ := Statement.nextWord?_eq_some otherFound
  rw [Statement.contains_relaid CaseVariant.sameLetter scripts, Statement.contains_eq_occurs,
    Statement.contains_eq_occurs, String.toList_append, String.toList_append,
    Phrase.words_drop_table filled fun c member => (solid c member).1,
    Phrase.words_drop_table otherFilled fun c member => (otherSolid c member).1]
  have own : ∀ word, Phrase.SameLetters word word := fun word =>
    List.forall₂_same.mpr fun c _ => sameLetter_refl c
  exact Phrase.occurs_spelling
    (.cons (own _) (.cons (own _) (.cons (alike.imp fun _ _ => CaseVariant.sameLetter) .nil))) _

theorem dropped?_variant {script other : Statement} (scripts : Variant script.chars other.chars)
    (variant : Variant left.chars right.chars) (start : String) :
    Option.Rel Violation.SameRemark (dropped? start script left) (dropped? start other right) := by
  have word := Statement.nextWord?_relaid CaseVariant.sameLetter variant "create table"
  rw [dropped?, dropped?, Statement.contains_relaid CaseVariant.sameLetter variant]
  generalize found : left.nextWord? "create table" = name,
    otherFound : right.nextWord? "create table" = other at word ⊢
  split
  · cases word with
    | none => exact .none
    | some alike =>
      dsimp only
      rw [contains_drop_variant scripts found otherFound alike, hasPrefix_variant alike]
      split
      · exact .some rfl
      · exact .none
  · exact .none

theorem tempTable?_variant {script? other? : Option Statement}
    (scripts : Option.Rel (fun script other => Variant script.chars other.chars) script? other?)
    (variant : Variant left.chars right.chars) (start : String) :
    Option.Rel Violation.SameRemark (tempTable? start script? left) (tempTable? start other? right) := by
  have temporary := temporary?_variant variant start
  rw [tempTable?, tempTable?]
  generalize temporary? start left = found, temporary? start right = otherFound at temporary ⊢
  cases temporary with
  | some same => exact .some same
  | none =>
    rw [Option.none_or, Option.none_or]
    cases scripts with
    | none => exact .none
    | some scripts => exact dropped?_variant scripts variant start

end Check

namespace Rule

variable {policy : Policy} {script? other? : Option Statement}

theorem violation?_variant {rule : Rule} (keyword : rule.id ≠ "constraint-naming")
    (scripts : Option.Rel (fun script other => Variant script.chars other.chars) script? other?)
    (variant : Variant left.chars right.chars) :
    Option.Rel Violation.SameRemark (rule.violation? policy script? left)
      (rule.violation? policy other? right) := by
  have same : ∀ found : Option Violation, Option.Rel Violation.SameRemark found found := by
    intro found
    cases found with
    | none => exact .none
    | some violation => exact .some rfl
  cases rule with
  | tableTablespace | indexTablespace =>
    rw [violation?, violation?, Check.tablespace?_variant variant]
    exact same _
  | tempTableName => exact Check.tempTable?_variant scripts variant _
  | noDoubleQuotes =>
    have quotes := Statement.quotePosition?_variant variant
    rw [violation?, violation?]
    generalize left.quotePosition? = found, right.quotePosition? = otherFound at quotes ⊢
    cases quotes with
    | none => exact .none
    | some => exact .some rfl
  | constraintName conventions => exact absurd rfl keyword

/-- Of the violations of a rule, only their wording is reported. -/
theorem entryOutcomes_of_sameRemark {entry : Definition × Rule}
    (keyword : entry.2.id ≠ "constraint-naming")
    (same : Option.Rel Violation.SameRemark (entry.2.violation? policy script? left)
      (entry.2.violation? policy other? right)) :
    Linter.entryOutcomes policy script? left entry = Linter.entryOutcomes policy other? right entry := by
  have single : ∀ script? statement, entry.2.violations policy script? statement =
      (entry.2.violation? policy script? statement).toList := by
    intro script? statement
    obtain ⟨definition, rule⟩ := entry
    cases rule with
    | tableTablespace | indexTablespace | tempTableName | noDoubleQuotes => rfl
    | constraintName conventions => exact absurd rfl keyword
  rw [Linter.entryOutcomes_rule, Linter.entryOutcomes_rule, single, single]
  generalize entry.2.violation? policy script? left = found,
    entry.2.violation? policy other? right = other at same ⊢
  cases same with
  | none => rfl
  | some same =>
    simp only [Option.toList_some, List.map_cons, List.map_nil, Finding.outcome]
    rw [show Violation.remark? _ = Violation.remark? _ from same]

end Rule

namespace Linter

/-- The outcomes of a statement in its script are those of every variant of it in
every variant of the script. -/
theorem outcomes_variant {catalog : Catalog} {registry : Registry} {config : Config} {linter : Linter}
    (built : build catalog registry config = .ok linter)
    (inactive : "constraint-naming" ∉ linter.active.map (·.ruleId)) {statement other : String}
    (variant : Variant (Statement.ofString statement).chars other.toList)
    {script? otherScript? : Option String}
    (scripts : Option.Rel (fun script other => Variant (Statement.ofString script).chars other.toList)
      script? otherScript?) :
    (linter.evaluate (script?.map .ofString) (.ofString statement)).outcomes =
      (linter.evaluate (otherScript?.map .ofString) (.ofString other)).outcomes := by
  have oneLine : ∀ {text other : String}, Variant (Statement.ofString text).chars other.toList →
      Variant (Statement.ofString text).chars (Statement.ofString other).chars :=
    fun variant => variant.onOneLine CaseVariant.sameLetter
  have oneLineScripts : Option.Rel (fun script other => Variant script.chars other.chars)
      (script?.map Statement.ofString) (otherScript?.map Statement.ofString) := by
    cases scripts with
    | none => exact .none
    | some variant => exact .some (oneLine variant)
  rw [outcomes_evaluate, outcomes_evaluate]
  apply List.flatMap_congr
  intro entry member
  have named := Registry.id_of_find? (registered_of_build built member)
  have keyword : entry.2.id ≠ "constraint-naming" := by
    intro same
    apply inactive
    rw [active, List.map_map, ← same, named]
    exact List.mem_map_of_mem member
  exact Rule.entryOutcomes_of_sameRemark keyword
    (Rule.violation?_variant keyword oneLineScripts (oneLine variant))

theorem outcomes_variant_dropped :
    ∃ linter, build Catalog.standard Registry.standard
        { selection := { disabled := ["constraint-naming"] } } = .ok linter ∧
      "constraint-naming" ∉ linter.active.map (·.ruleId) ∧
      (linter.evaluate (some (.ofString "drop table Foo")) (.ofString "create table Foo")).outcomes =
        (linter.evaluate (some (.ofString "DROP\ttable FOO"))
          (.ofString "create\r\n table fOO")).outcomes := by
  have built : build Catalog.standard Registry.standard
      { selection := { disabled := ["constraint-naming"] } } =
        .ok { standard with config := { selection := { disabled := ["constraint-naming"] } } } := rfl
  have statements : Variant (Statement.ofString "create table Foo").chars
      "create\r\n table fOO".toList := by
    have chars : (Statement.ofString "create table Foo").chars =
        "create".toList ++ (" ".toList ++ ("table".toList ++ (" ".toList ++ ("Foo".toList ++ [])))) := by
      decide +kernel
    have otherChars : "create\r\n table fOO".toList =
        "create".toList ++ ("\r\n ".toList ++ ("table".toList ++ (" ".toList ++
          ("fOO".toList ++ [])))) := by
      decide +kernel
    rw [chars, otherChars]
    exact .word rfl rfl (.blanks rfl rfl (.word rfl rfl (.blanks rfl rfl
      (.word (by decide +kernel) rfl .done))))
  have scripts : Variant (Statement.ofString "drop table Foo").chars "DROP\ttable FOO".toList := by
    have chars : (Statement.ofString "drop table Foo").chars =
        "drop".toList ++ (" ".toList ++ ("table".toList ++ (" ".toList ++ ("Foo".toList ++ [])))) := by
      decide +kernel
    have otherChars : "DROP\ttable FOO".toList =
        "DROP".toList ++ ("\t".toList ++ ("table".toList ++ (" ".toList ++ ("FOO".toList ++ [])))) := by
      decide +kernel
    rw [chars, otherChars]
    exact .word (by decide +kernel) rfl (.blanks rfl rfl (.word rfl rfl (.blanks rfl rfl
      (.word (by decide +kernel) rfl .done))))
  have inactive : "constraint-naming" ∉ ({ standard with config :=
      { selection := { disabled := ["constraint-naming"] } } } : Linter).active.map (·.ruleId) := by
    decide
  have same := outcomes_variant built inactive statements (.some scripts)
  exact ⟨_, built, inactive, same⟩

end Linter
end SchemaLint
