import SchemaLint.Check.ConstraintName
import SchemaLint.Proofs.DeclaredClauses
import SchemaLint.Proofs.ExpectedNames

/-! The names of declared constraints are judged by the convention of their kind.
For every declaration the violations found are those that it deserves, unless
it is a check that begins like a key. -/
namespace SchemaLint
open Text Clause

section Names

theorem Identifier.not_mem_bracket (name : Identifier) : '<' ∉ name.chars := by
  intro member
  cases name.plain _ member

namespace NamingConvention

variable {convention : NamingConvention} {table column : List Char}

/-- An expected name has no blanks but those of the table and column. -/
theorem solid_expectedName (member : convention ∈ standard)
    (solidTable : ∀ c ∈ table, isBlank c = false) (solidColumn : ∀ c ∈ column, isBlank c = false) :
    ∀ c ∈ (convention.expectedName (String.ofList table) (String.ofList column)).toList,
      isBlank c = false := by
  have formats : standard.all (fun convention =>
      convention.format.toList.all fun c => !isBlank c) = true := by decide
  have format : ∀ c ∈ convention.format.toList, isBlank c = false := by
    simpa using List.all_eq_true.mp formats convention member
  intro c inside
  rw [expectedName, String.toList_ofList, String.toList_ofList, String.toList_ofList] at inside
  rcases mem_of_mem_replaceFirst inside with put | kept
  · exact solidColumn c put
  · rcases mem_of_mem_replaceFirst kept with put | kept
    · exact solidTable c put
    · exact format c kept

end NamingConvention

/-- Where all other kinds are silent, one convention decides. -/
theorem Check.misnamed_standard_of_only {statement : Statement} {convention : NamingConvention}
    (member : convention ∈ NamingConvention.standard)
    (others : ∀ other : NamingConvention, other.kind ≠ convention.kind →
      misnamed? statement other = none) :
    misnamed NamingConvention.standard statement = (misnamed? statement convention).toList := by
  have distinct : NamingConvention.standard.Pairwise fun a b => a.kind ≠ b.kind := by decide
  obtain ⟨front, back, split⟩ := List.append_of_mem member
  rw [split, List.pairwise_append, List.pairwise_cons] at distinct
  obtain ⟨-, ⟨after, -⟩, before⟩ := distinct
  have frontNone : front.filterMap (misnamed? statement) = [] :=
    List.filterMap_eq_nil_iff.mpr fun other inFront =>
      others other (before other inFront convention List.mem_cons_self)
  have backNone : back.filterMap (misnamed? statement) = [] :=
    List.filterMap_eq_nil_iff.mpr fun other inBack => others other (after other inBack).symm
  rw [misnamed_eq, split, List.filterMap_append, List.filterMap_cons, frontNone, backNone]
  cases misnamed? statement convention <;> rfl

/-- What is found is reported unless its name is part of the expected one. -/
theorem Check.misnamed?_eq_none_iff {statement : Statement} {convention : NamingConvention}
    {position : Nat} {clause : Clause}
    (found : find? convention.kind statement.chars = some (position, clause)) :
    misnamed? statement convention = none ↔ trim clause.name <:+: (convention.expectedName
      (String.ofList (trim clause.table)) (String.ofList (trim clause.column))).toList := by
  rw [misnamed?, found, ← occursIn_iff]
  dsimp only [judge?]
  split <;> simp_all

/-- A name does not begin in two ways. -/
theorem kind_eq_of_named {kind other : ConstraintKind} {name : List Char}
    (same : kind.keyword = other.keyword) (named : Named kind name) (otherNamed : Named other name) :
    kind = other := by
  have first : ∀ {kind : ConstraintKind} {p : Char} {word : List Char},
      kind.nameStart.toList = p :: word → Named kind name →
      ∃ c, name.head? = some c ∧ sameLetter p c = true := by
    rintro kind p word shape ⟨start, rest, spells, rfl⟩
    rw [shape] at spells
    cases spells with
    | cons agrees _ => exact ⟨_, rfl, agrees⟩
  have apart : Named .check name → ¬ Named .notNull name := by
    intro check null
    obtain ⟨c, head, agrees⟩ := first (show _ = 'C' :: "K_".toList from rfl) check
    obtain ⟨d, head', agrees'⟩ := first (show _ = 'N' :: "N_".toList from rfl) null
    obtain rfl := Option.some.inj (head.symm.trans head')
    have letters : sameLetter 'C' 'N' = true :=
      sameLetter_iff.mpr ((sameLetter_iff.mp agrees).trans (sameLetter_iff.mp agrees').symm)
    exact absurd letters (by decide)
  obtain rfl | ⟨rfl, rfl⟩ | ⟨rfl, rfl⟩ := keyword_cases same
  · rfl
  · exact absurd otherNamed (apart named)
  · exact absurd named (apart otherNamed)

namespace Declaration

variable {declaration : Declaration} {statement : Statement}

theorem trim_tableText : trim declaration.tableText = declaration.table.chars := by
  have padded := trim_pad declaration.tableGap.blank declaration.addGap.blank declaration.table.chars
  rw [List.append_assoc] at padded
  exact padded.trans (trim_eq_self declaration.table.trimmed)

theorem trim_name : trim (declaration.name.chars ++ declaration.demandGap.chars.dropLast) =
    declaration.name.chars := by
  have blank : Blank declaration.demandGap.chars.dropLast :=
    fun c member => declaration.demandGap.blank c (List.dropLast_subset _ member)
  exact (trim_pad blank_nil blank declaration.name.chars).trans
    (trim_eq_self declaration.name.trimmed)

theorem misnamed?_undeclared {convention : NamingConvention}
    (apart : ¬ declaration.demand.Reopens convention.kind)
    (chars : statement.chars = declaration.chars)
    (other : ¬ (convention.kind.keyword = declaration.demand.kind.keyword ∧
      Named convention.kind declaration.name.chars)) :
    Check.misnamed? statement convention = none := by
  rw [Check.misnamed?, chars, declaration.find?_undeclared other apart, Check.judge?]

theorem misnamed_declared (apart : ∀ kind, ¬ declaration.demand.Reopens kind)
    (chars : statement.chars = declaration.chars) {convention : NamingConvention}
    (member : convention ∈ NamingConvention.standard)
    (same : convention.kind.keyword = declaration.demand.kind.keyword)
    (begins : Named convention.kind declaration.name.chars) {expected : List Char}
    (expects : convention.expectedName (String.ofList declaration.table.chars)
      (String.ofList declaration.demand.column.chars) = String.ofList expected) :
    Check.misnamed NamingConvention.standard statement =
      if occursIn declaration.name.chars expected then []
      else [.misnamed convention (String.ofList declaration.name.chars) (String.ofList expected)] := by
  have others : ∀ other : NamingConvention, other.kind ≠ convention.kind →
      Check.misnamed? statement other = none := by
    intro other differs
    refine misnamed?_undeclared (apart _) chars ?_
    rintro ⟨keyword, named⟩
    exact differs (kind_eq_of_named (keyword.trans same.symm) named begins)
  have own : Check.misnamed? statement convention =
      if occursIn declaration.name.chars expected then none
      else some (.misnamed convention (String.ofList declaration.name.chars)
        (String.ofList expected)) := by
    rw [Check.misnamed?, chars, declaration.find?_declared same begins]
    simp only [Check.judge?, trim_tableText, trim_name,
      trim_eq_self declaration.demand.column.trimmed, expects, String.toList_ofList]
  rw [Check.misnamed_standard_of_only member others, own]
  cases occursIn declaration.name.chars expected <;> rfl

theorem trimmed_opening (declaration : Declaration) : Trimmed declaration.opening := by
  refine ⟨declaration.name.solidFirst _, ?_⟩
  intro c last
  have closing : declaration.opening = (declaration.name.chars ++ (declaration.demandGap.chars ++
      (declaration.demand.kind.keyword.toList ++ declaration.demand.gap.chars))) ++ ['('] := by
    simp [opening]
  rw [closing, List.getLast?_concat] at last
  exact Option.some.inj last ▸ rfl

/-- A check that begins like a key is reported as a misnamed key: the name that is
read for it holds blanks. -/
theorem misnamed?_reopened {convention : NamingConvention}
    (reopens : declaration.demand.Reopens convention.kind)
    (chars : statement.chars = declaration.chars)
    (member : convention ∈ NamingConvention.standard) :
    ∃ declared expected,
      Check.misnamed? statement convention = some (.misnamed convention declared expected) := by
  obtain ⟨spaces, column, blank, solid, found⟩ := declaration.find?_reopened reopens
  have name : trim (declaration.opening ++ spaces) = declaration.opening :=
    (trim_pad blank_nil blank declaration.opening).trans
      (trim_eq_self declaration.trimmed_opening)
  have trimmed : ∀ c ∈ trim column, isBlank c = false :=
    fun c inside => solid c (trim_subset column inside)
  have differs : ¬ declaration.opening <:+: (convention.expectedName
      (String.ofList declaration.table.chars) (String.ofList (trim column))).toList := by
    intro inside
    obtain ⟨c, blanks, shape⟩ := List.exists_cons_of_ne_nil declaration.demandGap.filled
    have present : c ∈ declaration.opening := by simp [opening, shape]
    have solid := NamingConvention.solid_expectedName member declaration.table.stopFree.solid trimmed
      c (inside.subset present)
    rw [declaration.demandGap.blank c (shape ▸ List.mem_cons_self)] at solid
    cases solid
  refine ⟨String.ofList declaration.opening, convention.expectedName
    (String.ofList declaration.table.chars) (String.ofList (trim column)), ?_⟩
  rw [Check.misnamed?, chars, found]
  simp only [Check.judge?, name, trim_tableText]
  exact if_neg fun occurs => differs (occursIn_iff.mp occurs)

/-- The kind whose convention judges the declaration, with the name that this
one expects. A check is judged by the beginning of its name. -/
def judgement? (declaration : Declaration) : Option (ConstraintKind × List Char) :=
  let table := declaration.table.chars
  match declaration.demand with
  | .primaryKey .. => some (.primaryKey, "PK_".toList ++ table)
  | .unique _ columns => some (.uniqueKey, "UQ_".toList ++ (table ++ '_' :: columns.first.chars))
  | .foreignKey _ columns _ =>
    some (.foreignKey, "FK_".toList ++ (table ++ '_' :: columns.last.chars))
  | .check _ _ column _ =>
    if Named .check declaration.name.chars then
      some (.check, "CK_".toList ++ (table ++ '_' :: column.chars))
    else if Named .notNull declaration.name.chars then
      some (.notNull, "NN_".toList ++ (table ++ '_' :: column.chars))
    else none

/-- The violations are those that the declaration deserves: none where its name
is part of the expected one, and a single one otherwise. -/
def Judged (declaration : Declaration) (violations : List Violation) : Prop :=
  match declaration.judgement? with
  | none => violations = []
  | some (kind, expected) =>
    (declaration.name.chars <:+: expected → violations = []) ∧
    (¬ declaration.name.chars <:+: expected →
      ∃ convention ∈ NamingConvention.standard, convention.kind = kind ∧
        violations = [.misnamed convention (String.ofList declaration.name.chars)
          (String.ofList expected)])

end Declaration

/-- On one line, a check begins with blanks and then with what looks like the
definition of a key. -/
def Demand.OpensKey (demand : Demand) : Prop :=
  demand.oneLine.Reopens .primaryKey ∨ demand.oneLine.Reopens .foreignKey

instance (demand : Demand) : Decidable demand.OpensKey :=
  inferInstanceAs
    (Decidable (demand.oneLine.Reopens .primaryKey ∨ demand.oneLine.Reopens .foreignKey))

section Judgement

variable {declaration : Declaration} {statement : Statement} {expected : List Char}

theorem Declaration.Judged.of_convention {convention : NamingConvention}
    (apart : ∀ kind, ¬ declaration.demand.Reopens kind)
    (chars : statement.chars = declaration.chars)
    (judgement : declaration.judgement? = some (convention.kind, expected))
    (member : convention ∈ NamingConvention.standard)
    (same : convention.kind.keyword = declaration.demand.kind.keyword)
    (begins : Named convention.kind declaration.name.chars)
    (expects : convention.expectedName (String.ofList declaration.table.chars)
      (String.ofList declaration.demand.column.chars) = String.ofList expected) :
    declaration.Judged (Check.misnamed NamingConvention.standard statement) := by
  have reported := misnamed_declared apart chars member same begins expects
  rw [Judged, judgement]
  constructor
  · intro inside
    rw [reported, if_pos (occursIn_iff.mpr inside)]
  · intro outside
    refine ⟨convention, member, rfl, ?_⟩
    rw [reported, if_neg fun occurs => outside (occursIn_iff.mp occurs)]

theorem Declaration.Judged.of_column {kind : ConstraintKind} {start : List Char}
    (found : ∃ convention ∈ NamingConvention.standard, convention.kind = kind ∧
      convention.format.toList = start ++ (NamingConvention.tablePlaceholder.toList ++
        '_' :: NamingConvention.columnPlaceholder.toList))
    (plain : '<' ∉ start) (apart : ∀ kind, ¬ declaration.demand.Reopens kind)
    (chars : statement.chars = declaration.chars)
    (judgement : declaration.judgement? = some (kind, start ++ (declaration.table.chars ++
      '_' :: declaration.demand.column.chars)))
    (same : kind.keyword = declaration.demand.kind.keyword)
    (begins : Named kind declaration.name.chars) :
    declaration.Judged (Check.misnamed NamingConvention.standard statement) := by
  obtain ⟨convention, member, rfl, format⟩ := found
  exact of_convention apart chars judgement member same begins
    (NamingConvention.expectedName_column format plain
      (NamingConvention.columnPlaceholder_not_infix (Identifier.not_mem_bracket _)) _)

theorem Declaration.judged_misnamed (apart : ∀ kind, ¬ declaration.demand.Reopens kind)
    (chars : statement.chars = declaration.chars) :
    declaration.Judged (Check.misnamed NamingConvention.standard statement) := by
  obtain ⟨tableGap, table, addGap, nameGap, name, demandGap, demand⟩ := declaration
  have unmarked : Spells "".toList [] := List.Forall₂.nil
  cases demand with
  | primaryKey gap columns =>
    obtain ⟨convention, member, kind, format⟩ : ∃ convention ∈ NamingConvention.standard,
        convention.kind = .primaryKey ∧
          convention.format.toList = "PK_".toList ++ NamingConvention.tablePlaceholder.toList := by
      decide
    refine Judged.of_convention apart chars ?_ member ?_ ?_
      (NamingConvention.expectedName_table format (by decide)
        (NamingConvention.columnPlaceholder_not_infix table.not_mem_bracket) _)
    · rw [kind]
      rfl
    · rw [kind]
      rfl
    · rw [kind]
      exact ⟨[], _, unmarked, rfl⟩
  | unique gap columns =>
    exact Judged.of_column (by decide) (by decide) apart chars rfl rfl ⟨[], _, unmarked, rfl⟩
  | foreignKey gap columns reference =>
    exact Judged.of_column (by decide) (by decide) apart chars rfl rfl ⟨[], _, unmarked, rfl⟩
  | check gap before column condition =>
    by_cases check : Named .check name.chars
    · exact Judged.of_column (by decide) (by decide) apart chars (if_pos check) rfl check
    · by_cases null : Named .notNull name.chars
      · exact Judged.of_column (by decide) (by decide) apart chars
          ((if_neg check).trans (if_pos null)) rfl null
      · have unjudged : judgement? ⟨tableGap, table, addGap, nameGap, name, demandGap,
            .check gap before column condition⟩ = none := (if_neg check).trans (if_neg null)
        rw [Judged, unjudged]
        refine List.filterMap_eq_nil_iff.mpr fun convention _ =>
          misnamed?_undeclared (apart _) chars ?_
        rintro ⟨keyword, named⟩
        obtain same | ⟨same, -⟩ | ⟨same, -⟩ := keyword_cases keyword
        · have own : convention.kind = .check := same
          exact check (own ▸ named)
        · exact check (same ▸ named)
        · exact null (same ▸ named)

theorem Declaration.keyword_of_judgement? {kind : ConstraintKind}
    (judgement : declaration.judgement? = some (kind, expected)) :
    kind.keyword = declaration.demand.kind.keyword := by
  obtain ⟨tableGap, table, addGap, nameGap, name, demandGap, demand⟩ := declaration
  cases demand with
  | primaryKey | unique | foreignKey =>
    cases judgement
    rfl
  | check gap before column condition =>
    simp only [judgement?] at judgement
    split at judgement
    · cases judgement
      rfl
    · split at judgement
      · cases judgement
        rfl
      · cases judgement

theorem Declaration.not_judged_of_reopens {kind : ConstraintKind}
    (reopens : declaration.demand.Reopens kind) (chars : statement.chars = declaration.chars) :
    ¬ declaration.Judged (Check.misnamed NamingConvention.standard statement) := by
  obtain ⟨convention, member, rfl⟩ : ∃ convention ∈ NamingConvention.standard,
      convention.kind = kind := by
    obtain rfl | rfl := reopens.key <;> decide
  obtain ⟨declared, wanted, reported⟩ := misnamed?_reopened reopens chars member
  have present : .misnamed convention declared wanted ∈
      Check.misnamed NamingConvention.standard statement :=
    List.mem_filterMap.mpr ⟨convention, member, reported⟩
  intro judged
  rw [Judged] at judged
  split at judged
  · rw [judged] at present
    cases present
  · rename_i kind expected judgement
    by_cases inside : declaration.name.chars <:+: expected
    · rw [judged.1 inside] at present
      cases present
    · -- the only violation belongs to a kind with the keyword of the check
      obtain ⟨own, -, ownKind, violations⟩ := judged.2 inside
      rw [violations, List.mem_singleton] at present
      cases present
      have same := keyword_of_judgement? judgement
      rw [← ownKind] at same
      exact declaration.demand.not_reopens same reopens

theorem ColumnList.first_oneLine (columns : ColumnList) : columns.oneLine.first = columns.first := by
  cases columns <;> rfl

theorem ColumnList.last_oneLine (columns : ColumnList) : columns.oneLine.last = columns.last := by
  induction columns with
  | single column => rfl
  | more column others ih => exact ih

theorem Declaration.judgement?_oneLine (declaration : Declaration) :
    declaration.oneLine.judgement? = declaration.judgement? := by
  obtain ⟨tableGap, table, addGap, nameGap, name, demandGap, demand⟩ := declaration
  cases demand with
  | primaryKey | check => rfl
  | unique gap columns =>
    simp only [judgement?, oneLine, Demand.oneLine, ColumnList.first_oneLine]
  | foreignKey gap columns reference =>
    simp only [judgement?, oneLine, Demand.oneLine, ColumnList.last_oneLine]

theorem Declaration.judged_oneLine (declaration : Declaration) {violations : List Violation} :
    declaration.oneLine.Judged violations ↔ declaration.Judged violations := by
  rw [Judged, Judged, declaration.judgement?_oneLine]
  rfl

theorem Declaration.chars_ofString (declaration : Declaration) :
    (Statement.ofString (String.ofList declaration.chars)).chars = declaration.oneLine.chars := by
  rw [Statement.chars_ofString, String.toList_ofList, declaration.chars_oneLine]

theorem Declaration.not_judged_of_opensKey (declaration : Declaration)
    (opens : declaration.demand.OpensKey) :
    ¬ declaration.Judged (Check.misnamed NamingConvention.standard
      (.ofString (String.ofList declaration.chars))) := by
  rw [← declaration.judged_oneLine]
  rcases opens with primary | foreign
  · exact not_judged_of_reopens primary declaration.chars_ofString
  · exact not_judged_of_reopens foreign declaration.chars_ofString

end Judgement

/-- Whatever its identifiers and blanks are, a declaration is judged by the
convention of its own kind alone, on its own table, name and column. The only
exceptions are checks that begin like a key: they are judged as keys too. -/
theorem Check.misnamed_judged_iff (declaration : Declaration) :
    declaration.Judged (Check.misnamed NamingConvention.standard
      (.ofString (String.ofList declaration.chars))) ↔ ¬ declaration.demand.OpensKey := by
  constructor
  · exact fun judged opens => declaration.not_judged_of_opensKey opens judged
  · intro apart
    rw [← declaration.judged_oneLine]
    refine Declaration.judged_misnamed ?_ declaration.chars_ofString
    intro kind reopens
    obtain rfl | rfl := reopens.key
    · exact apart (Or.inl reopens)
    · exact apart (Or.inr reopens)

/-- A check whose operand and what follows it look like a key. -/
def openedCheck : Declaration where
  tableGap := .space
  table := .ofChars "t".toList (by decide)
  addGap := .space
  nameGap := .space
  name := .ofChars "CK_t_PRIMARY".toList (by decide)
  demandGap := .space
  demand := .check Spacing.space.toPadding Spacing.space.toPadding
    (.ofChars "PRIMARY".toList (by decide)) (.ofRest .space "KEY (a)".toList (by decide))

/-- Its name is the expected one, and yet it is not judged as it deserves. -/
theorem not_judged_openedCheck :
    String.ofList openedCheck.chars =
      "ALTER TABLE t ADD CONSTRAINT CK_t_PRIMARY CHECK ( PRIMARY KEY (a)" ∧
    openedCheck.judgement? = some (.check, openedCheck.name.chars) ∧
    ¬ openedCheck.Judged (Check.misnamed NamingConvention.standard
      (.ofString (String.ofList openedCheck.chars))) := by
  have opens : openedCheck.demand.OpensKey := by decide
  exact ⟨by decide, by decide, openedCheck.not_judged_of_opensKey opens⟩

end Names
end SchemaLint
