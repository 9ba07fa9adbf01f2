import Mathlib.Data.List.Infix
import SchemaLint.Proofs.PhraseOccurrence
import SchemaLint.Proofs.ScriptContext
import SchemaLint.Proofs.Text.Tokens

/-! What the tablespace rules see of a statement without terminators: its tokens,
which are the words of its text. A phrase occurs where its first word ends a token
and its other words are the tokens after that one, so a rule looks at tokens only,
and never at the place of one among the others except right after another. -/
namespace SchemaLint
open Text Phrase

namespace Phrase

variable {word text : List Char} {words : List (List Char)}

/-- The token ends with the word, in any case. -/
def EndsToken (word token : List Char) : Prop :=
  ∃ front last, token = front ++ last ∧ Spells word last

theorem Solid.tail (solid : Solid (word :: words)) : Solid words :=
  fun next member => solid next (List.mem_cons_of_mem _ member)

/-- The first word of a phrase is the whole run at the start of a text. -/
theorem begins_run (solid : Solid (word :: words)) {run rest : List Char}
    (maximal : MaximalRun run rest) (unbroken : terminator ∉ run) :
    begins (word :: words) (run ++ rest) = true ↔
      Spells word run ∧ begins words (trimStart rest) = true := by
  obtain ⟨-, plain⟩ := solid word List.mem_cons_self
  have stop : GapFirst rest := fun c head => Or.inl (maximal.stop c head)
  rw [begins_cons, readCaseless_append_gapFirst plain stop, spells_iff]
  cases read : readCaseless word run with
  | none => simp
  | some left =>
    cases left with
    | nil =>
      cases rest with
      | nil => simp [goesOn, trimStart, begins_gapFirst solid.tail gapFirst_nil]
      | cons c rest =>
        have blank := maximal.stop c rfl
        simp [goesOn, readGap_blank blank, trimStart, blank]
    | cons d left =>
      -- a character of the run is left, and that is no gap
      obtain ⟨front, -, rfl⟩ := readCaseless_eq_some_iff.mp read
      have inside : ¬ IsGap d := by
        rintro (blank | rfl)
        · simp [maximal.solid d (by simp)] at blank
        · simp at unbroken
      simp [goesOn, readGap_solid inside]

theorem begins_iff_words (solid : Solid words) (unbroken : terminator ∉ text)
    (first : SolidFirst text) :
    begins words text = true ↔
      ∃ tokens, tokens <+: Text.words text ∧ List.Forall₂ Spells words tokens := by
  induction words generalizing text with
  | nil => simp [begins]
  | cons word words ih =>
    by_cases empty : text = []
    · simp [empty, begins_gapFirst solid gapFirst_nil, words_nil]
    · obtain ⟨run, rest, rfl, filled, maximal⟩ := exists_maximalRun empty first
      have runUnbroken : terminator ∉ run := fun member => unbroken (List.mem_append_left _ member)
      have restUnbroken : terminator ∉ trimStart rest := fun member =>
        unbroken (List.mem_append_right _ ((List.dropWhile_sublist _).subset member))
      rw [begins_run solid maximal runUnbroken,
        ih solid.tail restUnbroken (solidFirst_trimStart rest), maximal.words_append filled,
        words_trimStart]
      constructor
      · rintro ⟨spells, tokens, starts, others⟩
        exact ⟨run :: tokens, List.cons_prefix_cons.mpr ⟨rfl, starts⟩, .cons spells others⟩
      · rintro ⟨tokens, starts, spelled⟩
        cases spelled with
        | @cons _ token _ tokens spells others =>
          obtain ⟨rfl, later⟩ := List.cons_prefix_cons.mp starts
          exact ⟨spells, tokens, later, others⟩

/-- A phrase occurs where its first word ends a token and its other words are the
tokens after it. -/
theorem occurs_iff_words (solid : Solid (word :: words)) (unbroken : terminator ∉ text) :
    occurs (word :: words) text = true ↔
      ∃ token tokens, token :: tokens <:+: Text.words text ∧ EndsToken word token ∧
        List.Forall₂ Spells words tokens := by
  rw [occurs, anySuffix_iff]
  constructor
  · rintro ⟨before, after, rfl, found⟩
    have first : SolidFirst after := by
      intro c head
      by_contra blank
      have gap : GapFirst after := fun d same => by
        obtain rfl := Option.some.inj (head.symm.trans same)
        exact Or.inl (by simpa using blank)
      simp [begins_gapFirst solid gap] at found
    have unbrokenAfter : terminator ∉ after := fun member =>
      unbroken (List.mem_append_right _ member)
    obtain ⟨tokens, ⟨more, same⟩, spelled⟩ :=
      (begins_iff_words solid unbrokenAfter first).mp found
    cases spelled with
    | @cons _ last _ tokens spells others =>
      obtain ⟨init, front, shape⟩ := exists_words_append before same.symm
      exact ⟨front ++ last, tokens, ⟨init, more, by simp [shape]⟩, ⟨front, last, rfl, spells⟩,
        others⟩
  · rintro ⟨token, tokens, ⟨init, more, same⟩, ⟨front, last, rfl, spells⟩, others⟩
    have filled : last ≠ [] := by
      rintro rfl
      cases spells
      exact (solid [] List.mem_cons_self).1 rfl
    have shape : Text.words text = init ++ (front ++ last) :: (tokens ++ more) := by simp [← same]
    obtain ⟨before, after, rfl, first, words_after⟩ := exists_append_of_words filled shape
    have unbrokenAfter : terminator ∉ after := fun member =>
      unbroken (List.mem_append_right _ member)
    refine ⟨before, after, rfl, (begins_iff_words solid unbrokenAfter first).mpr ?_⟩
    exact ⟨last :: tokens, ⟨more, by simp [words_after]⟩, .cons spells others⟩

end Phrase

namespace Check

/-- Some token ends with the name. -/
def Names (name : String) (tokens : List (List Char)) : Prop :=
  ∃ token ∈ tokens, EndsToken name.toList token

/-- Two tokens in a row create something of the kind. -/
def Creates (kind : String) (tokens : List (List Char)) : Prop :=
  ∃ first second, [first, second] <:+: tokens ∧ EndsToken "create".toList first ∧
    Spells kind.toList second

/-- Something of the kind is created, and the tokens name no tablespace at all or
none of the allowed ones; the details say which. -/
def Misplaced (kind : String) (allowed : List String) (tokens : List (List Char))
    (details : List (String × Detail)) : Prop :=
  Creates kind tokens ∧
    (¬ Names "tablespace" tokens ∧ details = [("pattern", .text "missing_tablespace")] ∨
      Names "tablespace" tokens ∧ (∀ name ∈ allowed, ¬ Names name tokens) ∧
        details = [("pattern", .text "tablespace_not_allowed"), ("allowed", .texts allowed)])

variable {statement : Statement}

theorem contains_iff_names (unbroken : terminator ∉ statement.chars) {name : String}
    (solid : Solid [name.toList]) :
    statement.contains name = true ↔ Names name (words statement.chars) := by
  obtain ⟨filled, whole⟩ := solid.whole name.toList List.mem_cons_self
  rw [Statement.contains_eq_occurs, words_of_solid filled whole, occurs_iff_words solid unbroken]
  simp [Names, List.singleton_infix_iff]

theorem contains_iff_creates (unbroken : terminator ∉ statement.chars) {keyword kind : String}
    (spelled : words keyword.toList = ["create".toList, kind.toList])
    (solid : Solid ["create".toList, kind.toList]) :
    statement.contains keyword = true ↔ Creates kind (words statement.chars) := by
  rw [Statement.contains_eq_occurs, spelled, occurs_iff_words solid unbroken]
  simp [Creates, List.forall₂_cons_left_iff]

theorem tablespace?_eq_some_iff {keyword : String} {allowed : List String} {violation : Violation} :
    tablespace? keyword allowed statement = some violation ↔
      statement.contains keyword = true ∧
        (¬ statement.contains "tablespace" = true ∧ violation = .missingTablespace ∨
          statement.contains "tablespace" = true ∧
            (∀ name ∈ allowed, ¬ statement.contains name = true) ∧
            violation = .tablespaceNotAllowed allowed) := by
  have unnamed : statement.containsAny allowed = false ↔
      ∀ name ∈ allowed, ¬ statement.contains name = true := by
    simp [Statement.containsAny]
  rw [← unnamed, tablespace?]
  cases statement.contains keyword <;> cases statement.contains "tablespace" <;>
    cases statement.containsAny allowed <;> simp [eq_comm]

theorem details_tablespace?_iff (unbroken : terminator ∉ statement.chars) {keyword kind : String}
    (spelled : words keyword.toList = ["create".toList, kind.toList])
    (solid : Solid ["create".toList, kind.toList]) {allowed : List String}
    (plain : Solid (allowed.map String.toList)) {details : List (String × Detail)} :
    (tablespace? keyword allowed statement).map Violation.details = some details ↔
      Misplaced kind allowed (words statement.chars) details := by
  have keywordSolid : Solid ["tablespace".toList] := by decide
  have unnamed : (∀ name ∈ allowed, ¬ statement.contains name = true) ↔
      ∀ name ∈ allowed, ¬ Names name (words statement.chars) := by
    refine forall₂_congr fun name member => not_congr (contains_iff_names unbroken ?_)
    intro word same
    rw [List.mem_singleton.mp same]
    exact plain name.toList (List.mem_map_of_mem member)
  simp only [Option.map_eq_some_iff, tablespace?_eq_some_iff, unnamed,
    contains_iff_creates unbroken spelled solid, contains_iff_names unbroken keywordSolid]
  constructor
  · rintro ⟨violation, ⟨creates, ⟨missing, rfl⟩ | ⟨named, others, rfl⟩⟩, rfl⟩
    · exact ⟨creates, Or.inl ⟨missing, rfl⟩⟩
    · exact ⟨creates, Or.inr ⟨named, others, rfl⟩⟩
  · rintro ⟨creates, ⟨missing, rfl⟩ | ⟨named, others, rfl⟩⟩
    · exact ⟨.missingTablespace, ⟨creates, Or.inl ⟨missing, rfl⟩⟩, rfl⟩
    · exact ⟨.tablespaceNotAllowed allowed, ⟨creates, Or.inr ⟨named, others, rfl⟩⟩, rfl⟩

end Check

namespace Rule

/-- The tablespace rules by tokens. -/
theorem details_tablespace_iff :
    (∀ script, ∀ text ∈ Script.statements script, terminator ∉ (Statement.ofString text).chars) ∧
    ∀ (policy : Policy) (script? : Option Statement) (statement : Statement),
      terminator ∉ statement.chars →
      (Solid (policy.tableTablespaces.map String.toList) → ∀ details,
        (tableTablespace.violation? policy script? statement).map Violation.details = some details ↔
          Check.Misplaced "table" policy.tableTablespaces (words statement.chars) details) ∧
      (Solid (policy.indexTablespaces.map String.toList) → ∀ details,
        (indexTablespace.violation? policy script? statement).map Violation.details = some details ↔
          Check.Misplaced "index" policy.indexTablespaces (words statement.chars) details) := by
  refine ⟨?_, ?_⟩
  · intro script text member
    obtain ⟨segment, present, rfl⟩ := List.mem_map.mp member
    exact Script.terminator_not_mem_chars (Script.standalone_of_mem_segments present).unbroken
  · intro policy script? statement unbroken
    refine ⟨fun plain details => ?_, fun plain details => ?_⟩
    · exact Check.details_tablespace?_iff unbroken rfl (by decide) plain
    · exact Check.details_tablespace?_iff unbroken rfl (by decide) plain

theorem details_tablespace_iff_recreate :
    terminator ∉ (Statement.ofString "reCREATE  table t tablespace ACCT").chars ∧
    Solid (({} : Policy).tableTablespaces.map String.toList) ∧
    Check.Misplaced "table" ({} : Policy).tableTablespaces
      (words (Statement.ofString "reCREATE  table t tablespace ACCT").chars)
      [("pattern", .text "tablespace_not_allowed"),
        ("allowed", .texts ["ACCTDATA", "ACCTIMS", "ACCTGLOBDATA", "IAAUDITDATA"])] := by
  have unbroken : terminator ∉ (Statement.ofString "reCREATE  table t tablespace ACCT").chars := by
    decide +kernel
  have plain : Solid (({} : Policy).tableTablespaces.map String.toList) := by decide +kernel
  have reported : (tableTablespace.violation? {} none
      (.ofString "reCREATE  table t tablespace ACCT")).map Violation.details =
        some [("pattern", .text "tablespace_not_allowed"),
          ("allowed", .texts ["ACCTDATA", "ACCTIMS", "ACCTGLOBDATA", "IAAUDITDATA"])] := by
    decide +kernel
  obtain ⟨-, byTokens⟩ := details_tablespace_iff
  exact ⟨unbroken, plain, ((byTokens {} none _ unbroken).1 plain _).mp reported⟩

end Rule
end SchemaLint
