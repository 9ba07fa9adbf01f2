import SchemaLint.Proofs.DroppedTables
import SchemaLint.Proofs.Text.Lowering

/-! Names that begin with the prefix for temporary tables to the letter. Prefix and
name are lowered each on its own, so such a name satisfies the rule unless a
capital sigma ends the prefix as if it ended a word, and the name goes on with the
word. -/
namespace SchemaLint
open Text Phrase

namespace Statement

variable {statement : Statement} {phrase name : String}

/-- The statement begins with the words of the phrase, in any case and with blanks
after each, and then comes the name as a word of its own. -/
def Opens (statement : Statement) (phrase name : String) : Prop :=
  ∃ parts after, statement.chars = parts.flatMap Part.chars ++ (name.toList ++ after) ∧
    Spelled (words phrase.toList) parts ∧ (∀ part ∈ parts, part.Spaced) ∧
    MaximalRun name.toList after

/-- The statement makes a table that does not outlive the script, if there is one. -/
def MakesTemporary (statement : Statement) (script? : Option Statement) (name : String) : Prop :=
  statement.nextWord? "create temporary table" = some name ∨
    statement.nextWord? "create table" = some name ∧
      ∃ script ∈ script?, script.contains ("drop table " ++ name) = true

theorem opens_ofString {parts : List Part} {opening after : String}
    (spelled : Spelled (words phrase.toList) parts) (spaced : ∀ part ∈ parts, part.Spaced)
    (opening_eq : opening.toList = parts.flatMap Part.chars)
    (unbroken : ∀ c ∈ opening.toList, isLineBreak c = false)
    (maximal : MaximalRun name.toList after.toList) :
    (ofString (opening ++ name ++ after)).Opens phrase name := by
  have plain : ∀ c ∈ opening.toList ++ name.toList, isLineBreak c = false := by
    intro c member
    rcases List.mem_append.mp member with before | inside
    · exact unbroken c before
    · exact not_isLineBreak_of_not_isBlank (maximal.solid c inside)
  have apart : ¬ BreakAcross (opening.toList ++ name.toList) after.toList := by
    rintro ⟨last, -⟩
    cases plain _ (List.mem_of_getLast? last)
  refine ⟨parts, onOneLine after.toList, ?_, spelled, spaced, maximal.solid, ?_⟩
  · rw [chars_ofString, String.toList_append, String.toList_append, onOneLine_append apart,
      onOneLine_eq_self plain, opening_eq, List.append_assoc]
  · intro c head
    cases text : after.toList with
    | nil => simp [text, onOneLine_eq_nil_iff.mpr rfl] at head
    | cons d rest =>
      obtain ⟨e, line, same, blank⟩ := exists_onOneLine_blank (maximal.stop d (by simp [text])) rest
      obtain rfl : e = c := by simpa [text, same] using head
      exact blank

theorem Opens.nextWord?_eq (opens : statement.Opens phrase name)
    (some_word : words phrase.toList ≠ []) (filled : name ≠ "") :
    statement.nextWord? phrase = some name := by
  obtain ⟨parts, after, chars, spelled, spaced, maximal⟩ := opens
  obtain ⟨next, run, same⟩ :=
    List.exists_cons_of_ne_nil (fun empty => filled (String.toList_eq_nil_iff.mp empty))
  rw [same] at chars maximal
  obtain ⟨solid, others⟩ := List.forall_mem_cons.mp maximal.solid
  have leads : LeadsFirst (words phrase.toList) statement.chars [] parts next (run ++ after) :=
    ⟨⟨by simp [chars], spelled, spaced, solid⟩, fun _ _ _ _ _ => Nat.zero_le _⟩
  have found := nextWord?_eq_some_of_leadsFirst some_word leads ⟨others, maximal.stop⟩
  rwa [← same, String.ofList_toList] at found

end Statement

namespace Check

theorem hasPrefix_append_iff (start rest : String) :
    hasPrefix start (start ++ rest) = true ↔ ¬ SigmaAcross start.toList rest.toList := by
  rw [hasPrefix, List.isPrefixOf_iff_prefix, String.toList_append, lowercase_isPrefix_append_iff]

theorem tempTable?_eq_none_iff {start : String} {script? : Option Statement}
    {statement : Statement} :
    tempTable? start script? statement = none ↔
      ∀ name, statement.MakesTemporary script? name → hasPrefix start name = true := by
  constructor
  · intro passed name makes
    rw [tempTable?, Option.or_eq_none_iff] at passed
    by_contra unnamed
    rw [Bool.not_eq_true] at unnamed
    rcases makes with temporary | ⟨created, script, rfl, dropped⟩
    · simp [temporary?_eq_some_iff.mpr ⟨name, temporary, unnamed, rfl⟩] at passed
    · have reported := dropped?_eq_some_iff.mpr
        ⟨name, Statement.contains_of_nextWord? created, created, dropped, unnamed, rfl⟩
      simp [reported] at passed
  · intro named
    rw [Option.eq_none_iff_forall_ne_some]
    intro violation reported
    rw [tempTable?, Option.or_eq_some_iff] at reported
    rcases reported with temporary | ⟨-, dropped⟩
    · obtain ⟨name, found, unnamed, -⟩ := temporary?_eq_some_iff.mp temporary
      simp [named name (Or.inl found)] at unnamed
    · obtain ⟨script, member, dropped⟩ := Option.bind_eq_some_iff.mp dropped
      obtain ⟨name, -, found, drops, unnamed, -⟩ := dropped?_eq_some_iff.mp dropped
      simp [named name (Or.inr ⟨found, script, member, drops⟩)] at unnamed

end Check

namespace Rule

/-- A table whose name begins with the prefix to the letter passes if and only if no
sigma lies across the end of the prefix. The other tables that the statement makes
are judged by their own names. -/
theorem violation?_tempTable_literal_iff (policy : Policy) (rest : String)
    (script? : Option Statement) (statement : Statement)
    (makes : statement.Opens "create temporary table" (policy.tempPrefix ++ rest) ∨
      statement.Opens "create table" (policy.tempPrefix ++ rest) ∧
        ∃ script ∈ script?,
          script.contains ("drop table " ++ (policy.tempPrefix ++ rest)) = true) :
    tempTableName.violation? policy script? statement = none ↔
      ¬ SigmaAcross policy.tempPrefix.toList rest.toList ∧
        ∀ other, other ≠ policy.tempPrefix ++ rest → statement.MakesTemporary script? other →
          lowercase policy.tempPrefix.toList <+: lowercase other.toList := by
  have passes : tempTableName.violation? policy script? statement = none ↔
      ∀ name, statement.MakesTemporary script? name →
        Check.hasPrefix policy.tempPrefix name = true := Check.tempTable?_eq_none_iff
  by_cases filled : policy.tempPrefix ++ rest = ""
  · -- every name begins with a prefix that is empty, and no sigma stands in it
    have empty : policy.tempPrefix.toList = [] := by
      have nothing := congrArg String.toList filled
      rw [String.toList_append] at nothing
      exact (List.append_eq_nil_iff.mp nothing).1
    simp [passes, Check.hasPrefix, SigmaAcross, empty, lowercase, lowercaseFrom]
  · have own : statement.MakesTemporary script? (policy.tempPrefix ++ rest) := by
      rcases makes with temporary | ⟨created, dropped⟩
      · exact Or.inl (temporary.nextWord?_eq (by decide) filled)
      · exact Or.inr ⟨created.nextWord?_eq (by decide) filled, dropped⟩
    rw [passes, ← Check.hasPrefix_append_iff]
    constructor
    · intro named
      refine ⟨named _ own, fun other _ made => ?_⟩
      exact List.isPrefixOf_iff_prefix.mp (named other made)
    · rintro ⟨literal, others⟩ name made
      by_cases same : name = policy.tempPrefix ++ rest
      · rw [same]
        exact literal
      · exact List.isPrefixOf_iff_prefix.mpr (others name same made)

/-- The prefix ends with a sigma, and the digit after it does not go on with the
word. -/
theorem violation?_tempTable_literal_iff_digit :
    (Statement.ofString ("CREATE TABLE " ++ "ΟΔΟΣ1" ++ "\n(a int)")).Opens "create table"
      ("ΟΔΟΣ" ++ "1") ∧
    (Statement.ofString "CREATE TABLE ΟΔΟΣ1\n(a int) / DROP TABLE ΟΔΟΣ1").contains
      ("drop table " ++ ("ΟΔΟΣ" ++ "1")) = true ∧
    tempTableName.violation? { tempPrefix := "ΟΔΟΣ" }
      (some (.ofString "CREATE TABLE ΟΔΟΣ1\n(a int) / DROP TABLE ΟΔΟΣ1"))
      (.ofString ("CREATE TABLE " ++ "ΟΔΟΣ1" ++ "\n(a int)")) = none := by
  have opens : (Statement.ofString ("CREATE TABLE " ++ "ΟΔΟΣ1" ++ "\n(a int)")).Opens
      "create table" "ΟΔΟΣ1" := by
    have spelled : Spelled (words "create table".toList)
        [⟨"CREATE".toList, [' ']⟩, ⟨"TABLE".toList, [' ']⟩] :=
      .cons (by decide +kernel) (.cons (by decide +kernel) .nil)
    have space : Blank [' '] := blank_singleton rfl
    have maximal : MaximalRun "ΟΔΟΣ1".toList "\n(a int)".toList :=
      ⟨forall_mem_of_all rfl, by rintro _ ⟨⟩; rfl⟩
    exact Statement.opens_ofString spelled (by simp [Part.Spaced, space]) rfl
      (forall_mem_of_all rfl) maximal
  have dropped : (Statement.ofString "CREATE TABLE ΟΔΟΣ1\n(a int) / DROP TABLE ΟΔΟΣ1").contains
      ("drop table " ++ ("ΟΔΟΣ" ++ "1")) = true := by decide +kernel
  have none_temporary : (Statement.ofString ("CREATE TABLE " ++ "ΟΔΟΣ1" ++ "\n(a int)")).nextWord?
      "create temporary table" = none := by decide +kernel
  refine ⟨opens, dropped, (violation?_tempTable_literal_iff { tempPrefix := "ΟΔΟΣ" } "1" _ _
    (Or.inr ⟨opens, _, rfl, dropped⟩)).mpr ⟨?_, ?_⟩⟩
  · rintro ⟨-, -, -, -, -, goesOn⟩
    cases goesOn
  · rintro other differs (temporary | ⟨created, -⟩)
    · cases none_temporary.symm.trans temporary
    · rw [opens.nextWord?_eq (by decide) (by decide)] at created
      exact absurd (Option.some.inj created).symm differs

/-- One more letter after the prefix, and its sigma is no longer the same in lower
case. -/
theorem violation?_tempTable_sigma_across :
    ("ΟΔΟΣ".toList <+: "ΟΔΟΣX".toList ∧ ∀ c ∈ "ΟΔΟΣX".toList, isBlank c = false) ∧
    tempTableName.violation? { tempPrefix := "ΟΔΟΣ" } none
      (.ofString "CREATE TEMPORARY TABLE ΟΔΟΣX (a int)") = some (.temporaryTable "ΟΔΟΣX") ∧
    tempTableName.violation? { tempPrefix := "ΟΔΟΣ" }
      (some (.ofString "CREATE TABLE ΟΔΟΣX (a int) / DROP TABLE ΟΔΟΣX"))
      (.ofString "CREATE TABLE ΟΔΟΣX (a int)") = some (.droppedInScript "ΟΔΟΣX") := by
  exact ⟨⟨by decide, forall_mem_of_all rfl⟩, by decide +kernel, by decide +kernel⟩

end Rule
end SchemaLint
