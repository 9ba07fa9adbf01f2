import SchemaLint.Proofs.DeclaredNames

/-! Checks on conditions of any kind. The first operand of a check reaches up to
a blank, so that a check without blanks is no check at all and its name is never
judged; a name that stands in the operand itself is taken for the expected one. -/
namespace SchemaLint
open Text Clause

/-- A part without the mark lies on one side of it. -/
theorem infix_append_cons_iff {mark : Char} {part left right : List Char} (absent : mark ∉ part) :
    part <:+: left ++ mark :: right ↔ part <:+: left ∨ part <:+: right := by
  have begins : ∀ {more after right : List Char}, more <:+ part → mark :: right = more ++ after →
      more = [] := by
    intro more after right tail shape
    cases more with
    | nil => rfl
    | cons c more =>
      obtain ⟨rfl, -⟩ := List.cons.inj shape
      exact absurd (tail.subset List.mem_cons_self) absent
  constructor
  · rintro ⟨before, after, same⟩
    rw [List.append_assoc] at same
    rcases List.append_eq_append_iff.mp same with ⟨front, rfl, later⟩ | ⟨more, rfl, later⟩
    · rcases List.append_eq_append_iff.mp later with ⟨more, rfl, -⟩ | ⟨more, rfl, shape⟩
      · exact Or.inl ⟨before, more, List.append_assoc _ _ _⟩
      · obtain rfl := begins (List.suffix_append _ _) shape
        exact Or.inl ⟨before, [], by simp⟩
    · cases more with
      | nil =>
        obtain rfl := begins List.suffix_rfl later
        exact Or.inr List.nil_infix
      | cons c more => exact Or.inr ⟨more, after, by simpa using (List.cons.inj later).2.symm⟩
  · rintro (left | right)
    · exact left.trans (List.prefix_append _ _).isInfix
    · exact right.trans ((List.suffix_cons _ _).trans (List.suffix_append _ _)).isInfix

theorem blanks_space : [' '] ≠ [] ∧ Blank [' '] := ⟨List.cons_ne_nil _ _, blank_singleton rfl⟩

namespace Clause

theorem readColumn_eq_readOperand {kind : ConstraintKind} (same : kind.keyword = "CHECK") :
    readColumn kind = readOperand := by
  cases kind with
  | check | notNull => rfl
  | foreignKey | primaryKey | uniqueKey => exact absurd same (by decide)

theorem spells_check {kind : ConstraintKind} (same : kind.keyword = "CHECK") :
    Spells kind.keyword.toList "CHECK".toList := by
  rw [same]
  exact spells_refl _

variable {kind : ConstraintKind}

/-- Blanks and then a constraint of the kind stand somewhere in the text. -/
def Defines (kind : ConstraintKind) (text : List Char) : Prop :=
  ∃ before gap after, (gap ≠ [] ∧ Blank gap) ∧ Opens kind after ∧ text = before ++ (gap ++ after)

theorem silent_iff_not_defines {text : List Char} :
    Silent (readDefinition kind) text ↔ ¬ Defines kind text := by
  constructor
  · rintro quiet ⟨before, gap, after, blanks, ⟨keyword, keywordGap, inside, spells, blank, fits, rfl⟩,
      rfl⟩
    have unread := quiet before _ rfl
    rw [readDefinition_run blanks spells blank] at unread
    exact fits.readColumn_ne_none unread
  · rintro nowhere before after rfl
    by_contra read
    obtain ⟨column, read⟩ := Option.ne_none_iff_exists'.mp read
    obtain ⟨gap, keyword, keywordGap, inside, blanks, spells, blank, rfl, found⟩ :=
      readDefinition_eq_some read
    obtain ⟨parts, ⟨rfl, fits, -⟩, -⟩ := exists_chosen_of_readColumn found
    exact nowhere ⟨before, gap, _, blanks, ⟨keyword, keywordGap, parts, spells, blank, fits, rfl⟩, rfl⟩

theorem defines_of_keyword {other : ConstraintKind} {text : List Char}
    (same : kind.keyword = other.keyword) (defined : Defines kind text) : Defines other text := by
  have null : Silent (readDefinition .check) text ↔ Silent (readDefinition .notNull) text := Iff.rfl
  rw [silent_iff_not_defines, silent_iff_not_defines, not_iff_not] at null
  obtain rfl | ⟨rfl, rfl⟩ | ⟨rfl, rfl⟩ := keyword_cases same
  · exact defined
  · exact null.mp defined
  · exact null.mpr defined

theorem Defines.exists_blank {text : List Char} (defined : Defines kind text) :
    ∃ c ∈ text, isBlank c = true := by
  obtain ⟨before, gap, after, blanks, -, rfl⟩ := defined
  obtain ⟨c, gap, rfl⟩ := List.exists_cons_of_ne_nil blanks.1
  exact ⟨c, by simp, blanks.2 c List.mem_cons_self⟩

/-- A name reaches at least up to a text in which a constraint is defined. -/
theorem Defines.readName_eq {front text : List Char} (defined : Defines kind text)
    (named : Named kind front) : ∃ more column, readName kind (front ++ text) =
      some (front ++ more, column) ∧ ∀ c ∈ column, isBlank c = false := by
  have heard : ¬ Silent (readDefinition kind) text := fun quiet =>
    silent_iff_not_defines.mp quiet defined
  simp only [Silent, not_forall] at heard
  obtain ⟨before, after, rfl, answered⟩ := heard
  have read := readName_ne_none (named.append before) answered
  rw [List.append_assoc] at read
  obtain ⟨⟨name, column⟩, read⟩ := Option.ne_none_iff_exists'.mp read
  obtain ⟨left, same, -, found, longest⟩ := readName_eq_some read
  have reach := longest _ after (List.append_assoc _ _ _).symm (named.append before) answered
  have begins : front <+: name := by
    refine List.prefix_of_prefix_length_le (List.prefix_append _ (before ++ after)) ?_ ?_
    · exact same ▸ List.prefix_append _ _
    · exact le_trans (by simp) reach
  obtain ⟨more, rfl⟩ := begins
  obtain ⟨-, -, -, inside, -, -, -, -, found⟩ := readDefinition_eq_some found
  exact ⟨more, column, read, solid_of_readColumn found⟩

end Clause

structure PlainName where
  chars : List Char
  filled : chars ≠ []
  plain : ∀ c ∈ chars, isIdentifierChar c = true

theorem PlainName.stopFree (name : PlainName) : StopFree name.chars :=
  fun c member => Identifier.not_isStop_of_isIdentifierChar (name.plain c member)

theorem PlainName.not_mem {c : Char} (name : PlainName) (other : isIdentifierChar c = false) :
    c ∉ name.chars := by
  intro member
  cases other.symm.trans (name.plain c member)

/-- A check on a column, after which the condition goes on with a character that
is not part of a name. -/
structure ColumnCheck where
  table : PlainName
  name : PlainName
  column : PlainName
  mark : Char
  ends : isIdentifierChar mark = false
  rest : List Char

namespace ColumnCheck

variable (check : ColumnCheck)

def condition : List Char := check.column.chars ++ check.mark :: check.rest

/-- The condition up to its first blank. -/
def operand : List Char := check.condition.takeWhile (!isBlank ·)

def chars : List Char :=
  "ALTER TABLE ".toList ++ (check.table.chars ++ (" ADD CONSTRAINT ".toList ++ (check.name.chars ++
    (" CHECK (".toList ++ (check.condition ++ [')'])))))

/-- The text after the opening parenthesis, on one line. -/
def inside : List Char := onOneLine check.condition ++ [')']

/-- The text after the name, on one line. -/
def definition : List Char := [' '] ++ ("CHECK".toList ++ ([' '] ++ '(' :: check.inside))

theorem chars_ofString : (Statement.ofString (String.ofList check.chars)).chars =
    "ALTER TABLE".toList ++ ([' '] ++ (check.table.chars ++ ([' '] ++ ("ADD CONSTRAINT".toList ++
      ([' '] ++ (check.name.chars ++ check.definition)))))) := by
  have unbroken : ∀ name : PlainName, name.chars.any isLineBreak = false :=
    fun name => unbroken_of_solid name.stopFree.solid
  have words : ∀ {word : List Char}, word ≠ [] → word.any isLineBreak = false →
      ∀ rest, onOneLine (word ++ rest) = word ++ onOneLine rest :=
    fun filled unbroken rest => onOneLine_word filled unbroken [] rest
  have alter := words (show "ALTER TABLE ".toList ≠ [] by decide) (by decide)
  have add := words (show " ADD CONSTRAINT ".toList ≠ [] by decide) (by decide)
  have keyword := words (show " CHECK (".toList ≠ [] by decide) (by decide)
  rw [Statement.chars_ofString, String.toList_ofList]
  delta chars
  rw [alter, words check.table.filled (unbroken _), add, words check.name.filled (unbroken _), keyword,
    onOneLine_append_cons rfl]
  rfl

variable {kind : ConstraintKind}

theorem silent_addition_tail
    (single : Absent "ADD CONSTRAINT".toList (onOneLine check.condition)) :
    Silent (readAddition kind)
      ("DD CONSTRAINT".toList ++ ([' '] ++ (check.name.chars ++ check.definition))) := by
  have stop : StopFirst check.definition := stopFirst_cons (Or.inl rfl) _
  have unadded : readCaseless " CONSTRAINT".toList (" CHECK".toList ++ ([' '] ++ '(' :: check.inside)) =
      none := readCaseless_append_none (by decide) _
  have closing : Silent (readAddition kind) [')'] := silent_cons rfl (silent_nil rfl)
  have condition : Silent (readAddition kind) check.inside :=
    single.silent_addition (stopFirst_cons (by decide) _) rfl closing
  have keyword : Unadding "CHECK".toList := by decide
  exact silent_addition_name blanks_space check.name.stopFree stop unadded
    (silent_addition_gap blanks_space.2 (keyword.silent (stopFirst_cons (Or.inl rfl) _)
      (silent_addition_gap blanks_space.2 (silent_addition_stop (by decide) condition))))

/-- What is found is read at the name. -/
theorem find?_eq (kind : ConstraintKind)
    (single : Absent "ADD CONSTRAINT".toList (onOneLine check.condition)) :
    find? kind (Statement.ofString (String.ofList check.chars)).chars =
      (readName kind (check.name.chars ++ check.definition)).map fun (name, column) =>
        (0, ⟨[' '] ++ (check.table.chars ++ [' ']), name, column⟩) := by
  have solid := check.name.stopFree.solidFirst check.name.filled check.definition
  rw [chars_ofString, find?_single blanks_space check.table.stopFree blanks_space
    (check.silent_addition_tail single), readAddition_blanks (spells_refl _) blanks_space solid,
    List.tail_cons, if_pos rfl, Option.or_none]

theorem silent_keyword (quiet : Silent (readDefinition kind) check.inside) :
    Silent (readDefinition kind) ("CHECK".toList ++ ([' '] ++ '(' :: check.inside)) := by
  have free : StopFree "CHECK".toList := by decide
  exact silent_solid free.solid (silent_mark blanks_space.2 (by decide) rfl quiet)

theorem readDefinition_definition (same : kind.keyword = "CHECK") :
    readDefinition kind check.definition = readOperand check.inside := by
  rw [← readColumn_eq_readOperand same]
  exact readDefinition_run blanks_space (spells_check same) blanks_space.2 check.inside

theorem readDefinition_other (other : kind.keyword ≠ "CHECK") :
    readDefinition kind check.definition = none := by
  have differs : readCaseless kind.keyword.toList
      ("CHECK".toList ++ ([' '] ++ '(' :: check.inside)) = none := by
    apply readCaseless_append_none
    cases kind with
    | check | notNull => exact absurd rfl other
    | foreignKey | primaryKey | uniqueKey => decide
  have solid : SolidFirst ("CHECK".toList ++ ([' '] ++ '(' :: check.inside)) := solidFirst_cons rfl _
  rw [definition, readDefinition_blanks blanks_space solid, readBody, differs]
  rfl

theorem readName_undefined (quiet : Silent (readDefinition kind) check.inside)
    (unread : readDefinition kind check.definition = none) :
    readName kind (check.name.chars ++ check.definition) = none :=
  readName_of_silent (silent_solid check.name.stopFree.solid
    (silent_cons unread (check.silent_keyword quiet)))

theorem readName_operand (same : kind.keyword = "CHECK") (named : Named kind check.name.chars)
    {operand : List Char} (read : readOperand check.inside = some operand)
    (quiet : Silent (readDefinition kind) check.inside) :
    readName kind (check.name.chars ++ check.definition) = some (check.name.chars, operand) := by
  rw [← readColumn_eq_readOperand same] at read
  have declared := readName_declared named blanks_space (spells_check same) blanks_space.2 read
    (check.silent_keyword quiet)
  rw [List.dropLast_singleton, List.append_nil] at declared
  exact declared

/-- Without a blank there is no first operand. -/
theorem readOperand_inside_none (solid : ∀ c ∈ check.inside, isBlank c = false) :
    readOperand check.inside = none := by
  by_contra read
  obtain ⟨operand, read⟩ := Option.ne_none_iff_exists'.mp read
  have read : readPlain .check check.inside = some operand := read
  obtain ⟨gap, after, fits, same⟩ := readPlain_eq_some_iff_fits.mp read
  obtain ⟨blanks, rest, filled, blank, rfl⟩ := fits.ends
  obtain ⟨c, blanks, rfl⟩ := List.exists_cons_of_ne_nil filled
  have member : c ∈ check.inside := by simp [same]
  cases (solid c member).symm.trans (blank c List.mem_cons_self)

theorem solid_inside (solid : ∀ c ∈ check.condition, isBlank c = false) :
    ∀ c ∈ check.inside, isBlank c = false := by
  have kept : onOneLine check.condition = check.condition :=
    onOneLine_eq_self fun c member => not_isLineBreak_of_not_isBlank (solid c member)
  intro c member
  rw [inside, kept, List.mem_append, List.mem_singleton] at member
  rcases member with inside | rfl
  · exact solid c inside
  · rfl

theorem solid_column : ∀ c ∈ check.column.chars, (!isBlank c) = true := by
  intro c member
  rw [check.column.stopFree.solid c member]
  rfl

/-- The operand is the column, or goes on with the mark after it. -/
theorem operand_cases :
    check.operand = check.column.chars ∨
      ∃ more, check.operand = check.column.chars ++ check.mark :: more := by
  rw [operand, condition, List.takeWhile_append_of_pos check.solid_column, List.takeWhile_cons]
  split
  · exact Or.inr ⟨_, rfl⟩
  · exact Or.inl (List.append_nil _)

theorem solid_operand : ∀ c ∈ check.operand, columnChar .check c = true :=
  fun _ member => List.mem_takeWhile_imp member

theorem operand_ne_nil : check.operand ≠ [] := by
  rcases check.operand_cases with whole | ⟨more, whole⟩
  · rw [whole]
    exact check.column.filled
  · simp [whole]

theorem exists_condition_eq (spaced : ∃ c ∈ check.condition, isBlank c = true) :
    ∃ b rest, check.condition = check.operand ++ b :: rest ∧ isBlank b = true := by
  have split : check.condition = check.operand ++ check.condition.dropWhile (!isBlank ·) :=
    List.takeWhile_append_dropWhile.symm
  cases ending : check.condition.dropWhile (!isBlank ·) with
  | nil =>
    obtain ⟨c, member, blank⟩ := spaced
    have solid := List.dropWhile_eq_nil_iff.mp ending c member
    simp [blank] at solid
  | cons b rest =>
    have stops := List.head?_dropWhile_not (!isBlank ·) check.condition
    rw [ending] at split stops
    exact ⟨b, rest, split, by simpa using stops⟩

theorem readOperand_inside (spaced : ∃ c ∈ check.condition, isBlank c = true) :
    readOperand check.inside = some check.operand := by
  obtain ⟨b, rest, split, blank⟩ := check.exists_condition_eq spaced
  obtain ⟨d, more, shape, first⟩ := exists_onOneLine_blank blank rest
  have unbroken : check.operand.any isLineBreak = false :=
    unbroken_of_solid fun c member => solid_of_columnChar (check.solid_operand c member)
  have line : onOneLine check.condition = check.operand ++ d :: more := by
    rw [split, ← shape]
    exact onOneLine_word check.operand_ne_nil unbroken [] _
  have fits : ColumnParts.Fits .check ⟨[], [], check.operand, d :: (more ++ [')'])⟩ :=
    ⟨Or.inl rfl, blank_nil, check.operand_ne_nil, check.solid_operand, [d], more ++ [')'],
      List.cons_ne_nil _ _, blank_singleton first, rfl⟩
  refine readPlain_eq_some_iff_fits.mpr ⟨[], d :: (more ++ [')']), fits, ?_⟩
  rw [inside, line, List.append_assoc]
  rfl

/-- The operand adds to the expected name only what comes after the mark. -/
theorem name_infix_iff {start : List Char}
    (wrong : ¬ check.name.chars <:+: start ++ (check.table.chars ++ '_' :: check.column.chars)) :
    check.name.chars <:+: start ++ (check.table.chars ++ '_' :: check.operand) ↔
      check.name.chars <:+: check.operand := by
  have suffix : ∀ column, column <:+: start ++ (check.table.chars ++ '_' :: column) :=
    fun column => ⟨start ++ (check.table.chars ++ ['_']), [], by simp⟩
  refine ⟨?_, fun inside => inside.trans (suffix _)⟩
  rcases check.operand_cases with whole | ⟨more, whole⟩
  · rw [whole]
    exact fun inside => absurd inside wrong
  · have split : start ++ (check.table.chars ++ '_' :: check.operand) =
        start ++ (check.table.chars ++ '_' :: check.column.chars) ++ check.mark :: more := by
      simp [whole]
    have absent := check.name.not_mem check.ends
    rw [split, infix_append_cons_iff absent, whole, infix_append_cons_iff absent]
    rintro (inside | inside)
    · exact absurd inside wrong
    · exact Or.inr inside

section Verdict

variable {convention : NamingConvention}

theorem misnamed?_unread
    (single : Absent "ADD CONSTRAINT".toList (onOneLine check.condition))
    (nothing : readName convention.kind (check.name.chars ++ check.definition) = none) :
    Check.misnamed? (.ofString (String.ofList check.chars)) convention = none := by
  rw [Check.misnamed?, check.find?_eq _ single, nothing]
  rfl

theorem misnamed?_read {name column : List Char}
    (single : Absent "ADD CONSTRAINT".toList (onOneLine check.condition))
    (read : readName convention.kind (check.name.chars ++ check.definition) = some (name, column))
    (solid : ∀ c ∈ column, isBlank c = false) :
    Check.misnamed? (.ofString (String.ofList check.chars)) convention = none ↔
      trim name <:+: (convention.expectedName (String.ofList check.table.chars)
        (String.ofList column)).toList := by
  have table : trim ([' '] ++ (check.table.chars ++ [' '])) = check.table.chars := by
    rw [← List.append_assoc, trim_pad blanks_space.2 blanks_space.2,
      trim_eq_self check.table.stopFree.trimmed]
  have whole : trim column = column :=
    trim_eq_self ⟨fun c head => solid c (List.mem_of_mem_head? head),
      fun c last => solid c (List.mem_of_mem_getLast? last)⟩
  have found := check.find?_eq convention.kind single
  rw [read] at found
  rw [Check.misnamed?_eq_none_iff found, table, whole]

/-- A definition within the condition makes a name with blanks of it. -/
theorem misnamed?_defined
    (single : Absent "ADD CONSTRAINT".toList (onOneLine check.condition))
    (member : convention ∈ NamingConvention.standard)
    (named : Named convention.kind check.name.chars)
    (defined : Defines convention.kind check.inside) :
    Check.misnamed? (.ofString (String.ofList check.chars)) convention ≠ none := by
  obtain ⟨more, column, read, solid⟩ := defined.readName_eq (named.append " CHECK (".toList)
  have text : check.name.chars ++ " CHECK (".toList ++ check.inside =
      check.name.chars ++ check.definition := List.append_assoc _ _ _
  rw [text] at read
  rw [ne_eq, check.misnamed?_read single read solid]
  have trimmed : Trimmed (check.name.chars ++ " CHECK (".toList) := by
    refine ⟨?_, ?_⟩
    · intro c head
      rw [List.head?_append_of_ne_nil _ check.name.filled] at head
      exact check.name.stopFree.solid c (List.mem_of_mem_head? head)
    · intro c last
      rw [List.getLast?_append] at last
      exact Option.some.inj last ▸ rfl
  intro inside
  have present : ' ' ∈ trim (check.name.chars ++ " CHECK (".toList ++ more) :=
    (prefix_trim trimmed more).subset (List.mem_append_right _ List.mem_cons_self)
  have blank := NamingConvention.solid_expectedName member check.table.stopFree.solid solid ' '
    (inside.subset present)
  cases blank

/-- The convention for checks whose names begin in this way. -/
theorem exists_convention (keyword : kind.keyword = "CHECK") :
    ∃ convention ∈ NamingConvention.standard, convention.kind = kind ∧
      convention.format.toList = kind.nameStart.toList ++
        (NamingConvention.tablePlaceholder.toList ++
          '_' :: NamingConvention.columnPlaceholder.toList) := by
  cases kind with
  | check | notNull => decide
  | foreignKey | primaryKey | uniqueKey => exact absurd keyword (by decide)

/-- The condition defines something for a convention to judge. -/
theorem misnamed_defined (single : Absent "ADD CONSTRAINT".toList (onOneLine check.condition))
    {own : ConstraintKind} (keyword : own.keyword = "CHECK") (named : Named own check.name.chars)
    (defined : Defines kind check.inside) :
    Check.misnamed NamingConvention.standard (.ofString (String.ofList check.chars)) ≠ [] := by
  obtain ⟨judge, listed, begins, judged⟩ : ∃ judge ∈ NamingConvention.standard,
      Named judge.kind check.name.chars ∧ Defines judge.kind check.inside := by
    by_cases same : kind.keyword = "CHECK"
    · obtain ⟨judge, listed, rfl, -⟩ := exists_convention keyword
      exact ⟨judge, listed, named, defines_of_keyword (same.trans keyword.symm) defined⟩
    · obtain ⟨judge, listed, rfl⟩ : ∃ judge ∈ NamingConvention.standard, judge.kind = kind := by
        cases kind <;> decide
      have unmarked : judge.kind.nameStart.toList = [] := by
        generalize judge.kind = kind at same
        cases kind with
        | check | notNull => exact absurd rfl same
        | foreignKey | primaryKey | uniqueKey => rfl
      exact ⟨judge, listed, ⟨[], _, unmarked ▸ .nil, rfl⟩, defined⟩
  intro nothing
  have unbroken := List.filterMap_eq_nil_iff.mp nothing judge listed
  exact check.misnamed?_defined single listed begins judged unbroken

/-- Where nothing is defined in the condition, only the convention for the name
of the check is left. -/
theorem misnamed_undefined (single : Absent "ADD CONSTRAINT".toList (onOneLine check.condition))
    (member : convention ∈ NamingConvention.standard) (keyword : convention.kind.keyword = "CHECK")
    (named : Named convention.kind check.name.chars)
    (nowhere : ∀ kind, ¬ Defines kind check.inside) :
    Check.misnamed NamingConvention.standard (.ofString (String.ofList check.chars)) =
      (Check.misnamed? (.ofString (String.ofList check.chars)) convention).toList := by
  refine Check.misnamed_standard_of_only member ?_
  intro other differs
  apply check.misnamed?_unread single
  by_cases same : other.kind.keyword = "CHECK"
  · refine readName_of_not_named (stopFirst_cons (Or.inl rfl) _) ?_
    intro begins
    exact differs (kind_eq_of_named (same.trans keyword.symm) begins named)
  · exact check.readName_undefined (silent_iff_not_defines.mpr (nowhere _))
      (check.readDefinition_other same)

theorem misnamed_solid (single : Absent "ADD CONSTRAINT".toList (onOneLine check.condition))
    (keyword : kind.keyword = "CHECK") (named : Named kind check.name.chars)
    (solid : ∀ c ∈ check.condition, isBlank c = false) :
    Check.misnamed NamingConvention.standard (.ofString (String.ofList check.chars)) = [] := by
  obtain ⟨convention, member, rfl, -⟩ := exists_convention keyword
  have inside := check.solid_inside solid
  have nowhere : ∀ kind, ¬ Defines kind check.inside := by
    intro kind defined
    obtain ⟨c, present, blank⟩ := defined.exists_blank
    cases (inside c present).symm.trans blank
  have unread : readDefinition convention.kind check.definition = none := by
    rw [check.readDefinition_definition keyword, check.readOperand_inside_none inside]
  rw [check.misnamed_undefined single member keyword named nowhere, check.misnamed?_unread single
    (check.readName_undefined (silent_iff_not_defines.mpr (nowhere _)) unread)]
  rfl

theorem misnamed_operand_iff (single : Absent "ADD CONSTRAINT".toList (onOneLine check.condition))
    (keyword : kind.keyword = "CHECK") (named : Named kind check.name.chars)
    (spaced : ∃ c ∈ check.condition, isBlank c = true)
    (nowhere : ∀ kind, ¬ Defines kind check.inside) :
    Check.misnamed NamingConvention.standard (.ofString (String.ofList check.chars)) = [] ↔
      check.name.chars <:+:
        kind.nameStart.toList ++ (check.table.chars ++ '_' :: check.operand) := by
  obtain ⟨convention, member, rfl, format⟩ := exists_convention keyword
  have operand : ∀ c ∈ check.operand, isBlank c = false :=
    fun c inside => solid_of_columnChar (check.solid_operand c inside)
  have read := check.readName_operand keyword named (check.readOperand_inside spaced)
    (silent_iff_not_defines.mpr (nowhere _))
  have judged := check.misnamed?_read single read operand
  have plain : '<' ∉ convention.kind.nameStart.toList := by
    cases convention.kind <;> decide
  have absent := NamingConvention.columnPlaceholder_not_infix (check.table.not_mem rfl)
  rw [NamingConvention.expectedName_column format plain absent, String.toList_ofList,
    trim_eq_self check.name.stopFree.trimmed] at judged
  rw [check.misnamed_undefined single member keyword named nowhere, Option.toList_eq_nil_iff, judged]

end Verdict
end ColumnCheck

/-- A misnamed check is passed over where its condition holds no blank, and where
its name stands in the first operand and the condition defines nothing else; in
all other cases it is reported. -/
theorem Check.misnamed_condition_iff (check : ColumnCheck) (kind : ConstraintKind)
    (keyword : kind.keyword = "CHECK") (named : Named kind check.name.chars)
    (wrong : ¬ check.name.chars <:+:
      kind.nameStart.toList ++ (check.table.chars ++ '_' :: check.column.chars))
    (single : Absent "ADD CONSTRAINT".toList (onOneLine check.condition)) :
    Check.misnamed NamingConvention.standard (.ofString (String.ofList check.chars)) = [] ↔
      (∀ c ∈ check.condition, isBlank c = false) ∨
      (check.name.chars <:+: check.operand ∧ ∀ kind, ¬ Defines kind check.inside) := by
  by_cases solid : ∀ c ∈ check.condition, isBlank c = false
  · exact iff_of_true (check.misnamed_solid single keyword named solid) (Or.inl solid)
  have spaced : ∃ c ∈ check.condition, isBlank c = true := by simpa using solid
  by_cases nowhere : ∀ kind, ¬ Defines kind check.inside
  · rw [check.misnamed_operand_iff single keyword named spaced nowhere, check.name_infix_iff wrong]
    constructor
    · exact fun inside => Or.inr ⟨inside, nowhere⟩
    · rintro (all | ⟨inside, -⟩)
      · exact absurd all solid
      · exact inside
  · obtain ⟨other, defined⟩ := not_forall_not.mp nowhere
    refine iff_of_false (check.misnamed_defined single keyword named defined) ?_
    rintro (all | ⟨-, none⟩)
    · exact solid all
    · exact none other defined

def PlainName.ofString (text : String)
    (valid : text.toList ≠ [] ∧ text.toList.all isIdentifierChar = true) : PlainName :=
  ⟨text.toList, valid.1, List.all_eq_true.mp valid.2⟩

def calledCheck : ColumnCheck where
  table := .ofString "t" (by decide)
  name := .ofString "nn_a" (by decide)
  column := .ofString "coalesce" (by decide)
  mark := '('
  ends := rfl
  rest := "a,\n0) > 0".toList

theorem misnamed_calledCheck :
    String.ofList calledCheck.chars =
      "ALTER TABLE t ADD CONSTRAINT nn_a CHECK (coalesce(a,\n0) > 0)" ∧
    Check.misnamed NamingConvention.standard (.ofString (String.ofList calledCheck.chars)) ≠ [] := by
  have judged := Check.misnamed_condition_iff calledCheck .notNull rfl (by decide)
    (by decide +kernel) (by decide +kernel)
  refine ⟨by decide, fun nothing => ?_⟩
  rcases judged.mp nothing with solid | ⟨inside, -⟩
  · cases solid '\n' (by decide)
  · revert inside
    decide +kernel

def unspacedCheck : ColumnCheck where
  table := .ofString "t" (by decide)
  name := .ofString "CK_x" (by decide)
  column := .ofString "a" (by decide)
  mark := '>'
  ends := rfl
  rest := "0".toList

/-- A misnamed check that is passed over. -/
theorem misnamed_unspacedCheck :
    String.ofList unspacedCheck.chars = "ALTER TABLE t ADD CONSTRAINT CK_x CHECK (a>0)" ∧
    Named .check unspacedCheck.name.chars ∧
    ¬ unspacedCheck.name.chars <:+: "CK_".toList ++
      (unspacedCheck.table.chars ++ '_' :: unspacedCheck.column.chars) ∧
    Check.misnamed NamingConvention.standard (.ofString (String.ofList unspacedCheck.chars)) = [] := by
  have keyword : ConstraintKind.check.keyword = "CHECK" := rfl
  have named : Named .check unspacedCheck.name.chars := by decide
  have solid : unspacedCheck.condition.all (fun c => !isBlank c) = true := rfl
  exact ⟨by decide, named, by decide +kernel,
    unspacedCheck.misnamed_solid (by decide +kernel) keyword named (by simpa using solid)⟩

end SchemaLint
