import SchemaLint.Proofs.ClauseReading
import SchemaLint.Proofs.Declaration

/-! Which clauses are found in the text of a declaration. It holds one clause of
its own kind, and what is found there are its table, name and column. A check
can begin like a key; then a clause for the key is found as well, and its name
reaches into the check. -/
namespace SchemaLint
open Text Clause

/-- A check can be meant to forbid nulls; all else is told by the keyword. -/
theorem keyword_cases {kind other : ConstraintKind} (same : kind.keyword = other.keyword) :
    kind = other ∨ kind = .check ∧ other = .notNull ∨ kind = .notNull ∧ other = .check := by
  revert same
  cases kind <;> cases other <;> decide

section Silence

variable {kind : ConstraintKind}

theorem Identifier.solidFirst (name : Identifier) (rest : List Char) :
    SolidFirst (name.chars ++ rest) :=
  name.stopFree.solidFirst name.filled rest

/-- An identifier begins no definition where something other than KEY follows. -/
theorem Identifier.not_opens (name : Identifier) {gap rest : List Char} (blank : Blank gap)
    (solid : SolidFirst rest) (stop : StopFirst (gap ++ rest))
    (unread : readCaseless "KEY".toList rest = none) :
    ¬ Opens kind (name.chars ++ (gap ++ rest)) := by
  intro opens
  obtain ⟨spells, inner, more, -, tail⟩ := opens.split name.stopFree stop
  have keyless : readCaseless " KEY".toList (gap ++ rest) = none :=
    readCaseless_space (by decide) blank solid unread
  cases kind with
  | check | notNull => exact name.notCheck spells
  | uniqueKey => exact name.notUnique spells
  | primaryKey | foreignKey => cases keyless.symm.trans tail

/-- An identifier up to a parenthesis or comma. -/
theorem Identifier.silent (name : Identifier) {before after next : List Char} {mark : Char}
    (blankBefore : Blank before) (blankAfter : Blank after) (stop : IsStop mark)
    (solid : isBlank mark = false) (rest : Silent (readDefinition kind) next) :
    Silent (readDefinition kind) (before ++ (name.chars ++ (after ++ mark :: next))) := by
  have other : ¬ Opens kind (name.chars ++ (after ++ mark :: next)) :=
    name.not_opens blankAfter (solidFirst_cons solid next)
      (stopFirst_gap blankAfter (stopFirst_cons stop next)) (readCaseless_stop (by decide) stop)
  exact silent_word blankBefore name.filled name.stopFree (fun _ => other)
    (silent_mark blankAfter stop solid rest)

theorem ListedColumn.chars_append (listed : ListedColumn) (next : List Char) :
    listed.chars ++ next =
      listed.before.chars ++ (listed.column.chars ++ (listed.after.chars ++ next)) := by
  simp [chars]

/-- A list of columns is passed over where single identifiers are. -/
theorem ColumnList.silent_of {α : Type} {read : List Char → Option α}
    (single : ∀ (name : Identifier) {before after next : List Char} {mark : Char}, Blank before →
      Blank after → IsStop mark → isBlank mark = false → Silent read next →
        Silent read (before ++ (name.chars ++ (after ++ mark :: next))))
    (columns : ColumnList) {next : List Char} (rest : Silent read next) :
    Silent read (columns.chars ++ ')' :: next) := by
  have listed : ∀ (column : ListedColumn) {mark : Char} {next : List Char}, IsStop mark →
      isBlank mark = false → Silent read next → Silent read (column.chars ++ mark :: next) := by
    intro column mark next stop solid rest
    rw [column.chars_append]
    exact single column.column column.before.blank column.after.blank stop solid rest
  induction columns with
  | single column => exact listed column (by decide) rfl rest
  | more column others ih =>
    rw [chars, List.append_assoc]
    exact listed column (by decide) rfl ih

theorem ColumnList.silent (columns : ColumnList) {next : List Char}
    (rest : Silent (readDefinition kind) next) :
    Silent (readDefinition kind) (columns.chars ++ ')' :: next) :=
  columns.silent_of Identifier.silent rest

theorem Reference.chars_append (reference : Reference) (next : List Char) :
    reference.chars ++ next = reference.gap.chars ++ ("REFERENCES".toList ++
      (reference.tableGap.chars ++ (reference.table.chars ++ (reference.listGap.chars ++
        '(' :: (reference.columns.chars ++ ')' :: next))))) := by
  delta chars
  simp only [List.append_assoc, List.cons_append, List.nil_append]

theorem Reference.silent (reference : Reference) {next : List Char}
    (rest : Silent (readDefinition kind) next) :
    Silent (readDefinition kind) (reference.chars ++ next) := by
  have stop := stopFirst_filled reference.tableGap.filled reference.tableGap.blank
  have keyword : Ordinary "REFERENCES".toList := by decide
  rw [reference.chars_append]
  refine keyword.silent reference.gap.blank (stop _) ?_
  exact reference.table.silent reference.tableGap.blank reference.listGap.blank (by decide) rfl
    (reference.columns.silent rest)

theorem Condition.stopFirst (condition : Condition) : StopFirst condition.chars := by
  obtain ⟨c, rest, shape, blank⟩ := condition.spaced
  rw [shape]
  exact stopFirst_cons (Or.inl blank) rest

/-- After its opening parenthesis and blanks, a check begins with what can be
read as a constraint of the kind. -/
def Demand.Reopens (kind : ConstraintKind) : Demand → Prop
  | .check _ before column condition =>
    before.chars ≠ [] ∧ Opens kind (column.chars ++ condition.chars)
  | .primaryKey .. | .unique .. | .foreignKey .. => False

instance (demand : Demand) : Decidable (demand.Reopens kind) :=
  match demand with
  | .check _ before column condition =>
    inferInstanceAs (Decidable (before.chars ≠ [] ∧ Opens kind (column.chars ++ condition.chars)))
  | .primaryKey .. | .unique .. | .foreignKey .. => inferInstanceAs (Decidable False)

/-- The operand of a check is no keyword of one word. -/
theorem Demand.Reopens.key {demand : Demand} (reopens : demand.Reopens kind) :
    kind = .primaryKey ∨ kind = .foreignKey := by
  cases demand with
  | primaryKey | unique | foreignKey => cases reopens
  | check gap before column condition =>
    have spells := (reopens.2.split column.stopFree condition.stopFirst).1
    cases kind with
    | check | notNull => exact absurd spells column.notCheck
    | uniqueKey => exact absurd spells column.notUnique
    | primaryKey => exact Or.inl rfl
    | foreignKey => exact Or.inr rfl

theorem Demand.not_reopens (demand : Demand) (same : kind.keyword = demand.kind.keyword) :
    ¬ demand.Reopens kind := by
  intro reopens
  cases demand with
  | primaryKey | unique | foreignKey => exact reopens
  | check gap before column condition =>
    obtain rfl | rfl := reopens.key
    · obtain own | ⟨own, -⟩ | ⟨own, -⟩ := keyword_cases same <;> cases own
    · obtain own | ⟨own, -⟩ | ⟨own, -⟩ := keyword_cases same <;> cases own

namespace Demand

/-- In front of the text, a check does not begin with what can be read as a
constraint of the kind. -/
def Apart (kind : ConstraintKind) (next : List Char) : Demand → Prop
  | .check _ before column condition =>
    before.chars ≠ [] → ¬ Opens kind (column.chars ++ (condition.chars ++ next))
  | .primaryKey .. | .unique .. | .foreignKey .. => True

theorem Apart.of_not_reopens {demand : Demand} (apart : ¬ demand.Reopens kind) :
    demand.Apart kind [] := by
  cases demand with
  | primaryKey | unique | foreignKey => trivial
  | check gap before column condition =>
    rw [Apart, List.append_nil]
    exact fun filled opens => apart ⟨filled, opens⟩

variable {next : List Char}

theorem silent_inside (demand : Demand) (apart : demand.Apart kind next) (stop : StopFirst next)
    (rest : Silent (readDefinition kind) next) :
    Silent (readDefinition kind) (demand.inside ++ next) := by
  cases demand with
  | primaryKey gap columns | unique gap columns =>
    rw [inside, List.append_assoc]
    exact columns.silent rest
  | foreignKey gap columns reference =>
    rw [inside, List.append_assoc]
    exact columns.silent (reference.silent rest)
  | check gap before column condition =>
    rw [inside, List.append_assoc, List.append_assoc]
    exact silent_word before.blank column.filled column.stopFree apart
      (condition.free.silent_append stop rest)

theorem chars_append (demand : Demand) (next : List Char) :
    demand.chars ++ next = keywordHead demand.kind ++
      (keywordTail demand.kind ++ (demand.gap.chars ++ '(' :: (demand.inside ++ next))) := by
  simp [chars, keyword_eq_append]

theorem solidFirst (demand : Demand) (next : List Char) : SolidFirst (demand.chars ++ next) := by
  obtain ⟨p, word, shape, solid⟩ := keyword_eq_cons demand.kind
  rw [chars, shape]
  exact solidFirst_cons solid _

/-- Past its start, the keyword of a demand is no keyword. -/
theorem silent (demand : Demand) (apart : demand.Apart kind next) (stop : StopFirst next)
    (rest : Silent (readDefinition kind) next) :
    Silent (readDefinition kind) (demand.chars ++ next) := by
  have opening : Silent (readDefinition kind) (demand.gap.chars ++ '(' :: (demand.inside ++ next)) :=
    silent_mark demand.gap.blank (by decide) rfl (demand.silent_inside apart stop rest)
  have stop : StopFirst (demand.gap.chars ++ '(' :: (demand.inside ++ next)) :=
    stopFirst_gap demand.gap.blank (stopFirst_cons (by decide) _)
  have ordinary : Ordinary "KEY".toList := by decide
  have key : Silent (readDefinition kind)
      ([' '] ++ ("KEY".toList ++ (demand.gap.chars ++ '(' :: (demand.inside ++ next)))) :=
    ordinary.silent (blank_singleton rfl) stop opening
  rw [chars_append]
  refine silent_solid (stopFree_keywordHead demand.kind).solid ?_
  cases demand.kind with
  | check | notNull | uniqueKey => exact opening
  | primaryKey | foreignKey => exact key

theorem silent_chars (demand : Demand) (apart : ¬ demand.Reopens kind) :
    Silent (readDefinition kind) demand.chars := by
  have quiet := demand.silent (.of_not_reopens apart) stopFirst_nil (silent_nil rfl)
  rwa [List.append_nil] at quiet

theorem not_opens (demand : Demand) (next : List Char)
    (other : kind.keyword ≠ demand.kind.keyword) : ¬ Opens kind (demand.chars ++ next) := by
  have heads : ∀ own : ConstraintKind, kind.keyword ≠ own.keyword →
      ¬ Spells (keywordHead kind) (keywordHead own) := by
    intro own
    cases kind <;> cases own <;> decide
  have opening : StopFirst (demand.gap.chars ++ '(' :: (demand.inside ++ next)) :=
    stopFirst_gap demand.gap.blank (stopFirst_cons (by decide) _)
  have tail : StopFirst
      (keywordTail demand.kind ++ (demand.gap.chars ++ '(' :: (demand.inside ++ next))) := by
    cases demand.kind with
    | check | notNull | uniqueKey => exact opening
    | primaryKey | foreignKey => exact stopFirst_cons (by decide) _
  rw [chars_append]
  exact not_opens_of_not_spells (heads _ other) (stopFree_keywordHead _) tail

/-- No demand holds the words that add a constraint with a constraint after
them. -/
theorem silent_addition (demand : Demand) : Silent (readAddition kind) demand.chars := by
  cases demand with
  | primaryKey gap columns | unique gap columns | foreignKey gap columns reference =>
    exact silent_readAddition (silent_chars _ fun reopens => reopens)
  | check gap before column condition =>
    have operand : Silent (readAddition kind) (column.chars ++ condition.chars) :=
      silent_readAddition (silent_solid column.stopFree.solid condition.free.silent)
    have unadding : Unadding "CHECK".toList := by decide
    exact unadding.silent (stopFirst_gap gap.blank (stopFirst_cons (by decide) _))
      (silent_addition_gap gap.blank (silent_addition_stop (by decide)
        (silent_addition_gap before.blank operand)))

end Demand
end Silence

section Columns

theorem columnChar_of_not_isStop {kind : ConstraintKind} {c : Char} (plain : ¬ IsStop c) :
    columnChar kind c = true := by
  simp only [IsStop, not_or, Bool.not_eq_true] at plain
  cases kind <;> simp [columnChar, isColumnChar, plain]

theorem Identifier.column (name : Identifier) (kind : ConstraintKind) :
    ∀ c ∈ name.chars, columnChar kind c = true :=
  fun c member => columnChar_of_not_isStop (name.stopFree c member)

theorem ListedColumn.of_mem {listed : ListedColumn} {c : Char} (member : c ∈ listed.chars) :
    isBlank c = true ∨ isIdentifierChar c = true := by
  simp only [chars, List.mem_append] at member
  rcases member with before | column | after
  · exact Or.inl (listed.before.blank c before)
  · exact Or.inr (listed.column.plain c column)
  · exact Or.inl (listed.after.blank c after)

theorem ColumnList.not_mem_close (columns : ColumnList) : ')' ∉ columns.chars := by
  have listed : ∀ column : ListedColumn, ')' ∉ column.chars := by
    intro column member
    rcases ListedColumn.of_mem member with blank | plain
    · cases blank
    · cases plain
  induction columns with
  | single column => exact listed column
  | more column others ih => simp [chars, listed, ih]

theorem ColumnList.readFirstColumn_eq (columns : ColumnList) (next : List Char) :
    readFirstColumn (columns.chars ++ ')' :: next) = some columns.first.chars := by
  have listed : ∀ (column : ListedColumn) (mark : Char) (next : List Char),
      isColumnChar mark = false →
      readPlain .primaryKey (column.chars ++ mark :: next) = some column.column.chars := by
    intro column mark next closing
    refine readPlain_eq_some_iff_fits.mpr
      ⟨column.before.chars, column.after.chars ++ mark :: next, ?_, column.chars_append _⟩
    refine ⟨Or.inl rfl, column.before.blank, column.column.filled, column.column.column _, ?_⟩
    intro c head
    cases shape : column.after.chars with
    | nil =>
      rw [shape] at head
      exact Option.some.inj head ▸ closing
    | cons b blanks =>
      rw [shape] at head
      have blank := column.after.blank b (shape ▸ List.mem_cons_self)
      obtain rfl := Option.some.inj head
      simp [isColumnChar, blank]
  cases columns with
  | single column => exact listed column ')' next rfl
  | more column others =>
    rw [chars, List.append_assoc]
    exact listed column ',' _ rfl

/-- A list is closed by its last character only. -/
theorem Reference.suffix_of_close (reference : Reference) {before after next : List Char}
    (same : reference.chars ++ next = before ++ ')' :: after) : after <:+ next := by
  obtain ⟨body, shape, inside⟩ : ∃ body, reference.chars = body ++ [')'] ∧ ')' ∉ body := by
    refine ⟨reference.gap.chars ++ ("REFERENCES".toList ++ (reference.tableGap.chars ++
      (reference.table.chars ++ (reference.listGap.chars ++ '(' :: reference.columns.chars)))),
      by simp [chars], ?_⟩
    have blank : ∀ gap : Padding, ')' ∉ gap.chars := by
      intro gap member
      cases gap.blank _ member
    have plain : ')' ∉ reference.table.chars := by
      intro member
      cases reference.table.plain _ member
    have keyword : ')' ∉ "REFERENCES".toList := by decide
    simp only [List.mem_append, List.mem_cons, blank, plain, keyword,
      reference.columns.not_mem_close, or_false, false_or]
    decide
  rw [shape, List.append_assoc, List.singleton_append] at same
  rcases List.append_eq_append_iff.mp same with ⟨more, -, later⟩ | ⟨more, rfl, later⟩
  · cases more with
    | nil => exact (List.cons.inj later).2 ▸ List.suffix_rfl
    | cons c more => exact ⟨more ++ [')'], by simpa using (List.cons.inj later).2.symm⟩
  · cases more with
    | nil => exact (List.cons.inj later).2 ▸ List.suffix_rfl
    | cons c more =>
      obtain ⟨rfl, -⟩ := List.cons.inj later
      exact absurd (List.mem_append_right _ List.mem_cons_self) inside

theorem Reference.silent_readAfterComma (reference : Reference) {next : List Char}
    (absent : Absent "REFERENCES".toList next) :
    Silent readAfterComma (reference.chars ++ next) := by
  intro before after same
  by_contra read
  obtain ⟨column, read⟩ := Option.ne_none_iff_exists'.mp read
  obtain ⟨rest, rfl, plain⟩ := readAfterComma_eq_some_iff.mp read
  obtain ⟨gap, ending, fits, rfl⟩ := readPlain_eq_some_iff_fits.mp plain
  obtain ⟨inner, between, references, more, -, spells, rfl⟩ := fits.ends
  have closed : reference.chars ++ next = (before ++ ',' :: (gap ++ (column ++ inner))) ++
      ')' :: (between ++ (references ++ more)) := by
    rw [same]
    simp
  have later : references <:+: between ++ (references ++ more) :=
    ⟨between, more, List.append_assoc _ _ _⟩
  exact absent references spells (later.trans (reference.suffix_of_close closed).isInfix)

/-- The closing column is not lost by columns in front of it. -/
theorem readLastColumn_skip {text column : List Char} (read : readLastColumn text = some column)
    (front : List Char) : readLastColumn (front ++ ',' :: text) = some column := by
  have searched : ∃ run, longestRun (fun _ => true) readAfterComma (front ++ ',' :: text) =
      some (run, column) := by
    induction front with
    | nil =>
      rw [List.nil_append, longestRun, if_pos rfl]
      rw [readLastColumn] at read
      split at read
      · rename_i run found searched
        cases read
        exact ⟨',' :: run, by rw [searched]⟩
      · rename_i searched
        exact ⟨[], by rw [searched, readAfterComma, read]; rfl⟩
    | cons c front ih =>
      obtain ⟨run, searched⟩ := ih
      exact ⟨c :: run, by rw [List.cons_append, longestRun, if_pos rfl, searched]⟩
  obtain ⟨run, searched⟩ := searched
  rw [readLastColumn, searched]

theorem ColumnList.readLastColumn_eq (columns : ColumnList) (reference : Reference)
    {next : List Char} (absent : Absent "REFERENCES".toList next) :
    readLastColumn (columns.chars ++ ')' :: (reference.chars ++ next)) = some columns.last.chars := by
  induction columns with
  | single listed =>
    -- no comma stands in the list, and after those of the reference no column is closing
    have quiet : Silent readAfterComma (listed.chars ++ ')' :: (reference.chars ++ next)) := by
      refine silent_append ?_ (silent_cons rfl (reference.silent_readAfterComma absent))
      intro before after same filled
      obtain ⟨c, after, rfl⟩ := List.exists_cons_of_ne_nil filled
      have member : c ∈ listed.chars := same ▸ List.mem_append_right _ List.mem_cons_self
      have other : c ≠ ',' := by
        rintro rfl
        rcases ListedColumn.of_mem member with blank | plain
        · cases blank
        · cases plain
      by_contra read
      obtain ⟨column, read⟩ := Option.ne_none_iff_exists'.mp read
      obtain ⟨rest, shape, -⟩ := readAfterComma_eq_some_iff.mp read
      exact other (List.cons.inj shape).1
    have closing : readClosingColumn (listed.chars ++ ')' :: (reference.chars ++ next)) =
        some listed.column.chars := by
      have fits : ColumnParts.Fits .foreignKey ⟨[], listed.before.chars, listed.column.chars,
          listed.after.chars ++ ')' :: (reference.chars ++ next)⟩ :=
        ⟨Or.inl rfl, listed.before.blank, listed.column.filled, listed.column.column _,
          listed.after.chars, reference.gap.chars, "REFERENCES".toList, _, listed.after.blank,
          spells_refl _, by rw [reference.chars_append]⟩
      exact readPlain_eq_some_iff_fits.mpr ⟨_, _, fits, listed.chars_append _⟩
    have searched : longestRun (fun _ => true) readAfterComma
        (listed.chars ++ ')' :: (reference.chars ++ next)) = none :=
      longestRun_eq_none_iff.mpr fun run rest same _ => quiet run rest same
    rw [chars, readLastColumn, searched]
    exact closing
  | more listed others ih =>
    rw [chars, List.append_assoc]
    exact readLastColumn_skip ih listed.chars

/-- A reference that comes later would be taken for that of a foreign key. -/
theorem Demand.readColumn_eq (demand : Demand) {kind : ConstraintKind} {next : List Char}
    (same : kind.keyword = demand.kind.keyword)
    (absent : kind = .foreignKey → Absent "REFERENCES".toList next) :
    readColumn kind (demand.inside ++ next) = some demand.column.chars := by
  cases demand with
  | primaryKey gap columns =>
    rw [inside, List.append_assoc]
    obtain rfl | ⟨-, other⟩ | ⟨-, other⟩ := keyword_cases same
    · exact columns.readFirstColumn_eq next
    · cases other
    · cases other
  | unique gap columns =>
    rw [inside, List.append_assoc]
    obtain rfl | ⟨-, other⟩ | ⟨-, other⟩ := keyword_cases same
    · exact columns.readFirstColumn_eq next
    · cases other
    · cases other
  | foreignKey gap columns reference =>
    rw [inside, List.append_assoc]
    obtain rfl | ⟨-, other⟩ | ⟨-, other⟩ := keyword_cases same
    · exact columns.readLastColumn_eq reference (absent rfl)
    · cases other
    · cases other
  | check gap before column condition =>
    rw [inside, List.append_assoc, List.append_assoc]
    have operand : readOperand (before.chars ++ (column.chars ++ (condition.chars ++ next))) =
        some column.chars := by
      obtain ⟨c, rest, shape, blank⟩ := condition.spaced
      have fits : ColumnParts.Fits .check
          ⟨[], before.chars, column.chars, condition.chars ++ next⟩ :=
        ⟨Or.inl rfl, before.blank, column.filled, column.column _, [c], rest ++ next,
          List.cons_ne_nil _ _, blank_singleton blank, by rw [shape]; rfl⟩
      exact readPlain_eq_some_iff_fits.mpr ⟨before.chars, condition.chars ++ next, fits, rfl⟩
    obtain rfl | ⟨-, other⟩ | ⟨rfl, -⟩ := keyword_cases same
    · exact operand
    · cases other
    · exact operand

end Columns

section Search

variable {kind : ConstraintKind}

instance (kind : ConstraintKind) (name : List Char) : Decidable (Named kind name) :=
  decidable_of_iff ((readCaseless kind.nameStart.toList name).isSome = true) (by
    simp only [Option.isSome_iff_exists, readCaseless_eq_some_iff, Named]
    exact ⟨fun ⟨rest, start, found⟩ => ⟨start, rest, found⟩,
      fun ⟨start, rest, found⟩ => ⟨rest, start, found⟩⟩)

theorem Demand.readCaseless_key (demand : Demand) (next : List Char) :
    readCaseless "KEY".toList (demand.chars ++ next) = none := by
  rw [chars, List.append_assoc]
  apply readCaseless_append_none
  cases demand.kind <;> decide

theorem Demand.readCaseless_constraint (demand : Demand) (next : List Char) :
    readCaseless "CONSTRAINT".toList (demand.chars ++ next) = none := by
  rw [chars, List.append_assoc]
  apply readCaseless_append_none
  cases demand.kind <;> decide

namespace Addition

variable (addition : Addition) {next : List Char}

theorem named_append (next : List Char) : addition.named ++ next =
    addition.name.chars ++ (addition.demandGap.chars ++ (addition.demand.chars ++ next)) := by
  simp [named]

theorem text_append (next : List Char) : addition.text ++ next =
    "ADD CONSTRAINT".toList ++ (addition.nameGap.chars ++ (addition.named ++ next)) := by
  delta text
  simp only [List.append_assoc]

theorem stopFirst_demand (next : List Char) :
    StopFirst (addition.demandGap.chars ++ (addition.demand.chars ++ next)) :=
  stopFirst_filled addition.demandGap.filled addition.demandGap.blank _

/-- Only the keyword of the demand itself is followed by an opening parenthesis. -/
theorem silent_definition (other : kind.keyword ≠ addition.demand.kind.keyword)
    (apart : addition.demand.Apart kind next) (stop : StopFirst next)
    (rest : Silent (readDefinition kind) next) :
    Silent (readDefinition kind) (addition.addGap.chars ++ (addition.text ++ next)) := by
  have words : Ordinary "ADD".toList ∧ Ordinary "CONSTRAINT".toList := by decide
  have demand := silent_gap addition.demandGap.blank (addition.demand.solidFirst next)
    (fun _ => addition.demand.not_opens next other) (addition.demand.silent apart stop rest)
  have name : Silent (readDefinition kind) (addition.nameGap.chars ++ (addition.named ++ next)) := by
    rw [addition.named_append]
    exact silent_word addition.nameGap.blank addition.name.filled addition.name.stopFree
      (fun _ => addition.name.not_opens addition.demandGap.blank (addition.demand.solidFirst next)
        (addition.stopFirst_demand next) (addition.demand.readCaseless_key next)) demand
  have whole : Silent (readDefinition kind) (addition.addGap.chars ++ ("ADD".toList ++
      ([' '] ++ ("CONSTRAINT".toList ++ (addition.nameGap.chars ++ (addition.named ++ next)))))) :=
    words.1.silent addition.addGap.blank (stopFirst_cons (Or.inl rfl) _)
      (words.2.silent (blank_singleton rfl)
        (stopFirst_filled addition.nameGap.filled addition.nameGap.blank _) name)
  rw [addition.text_append]
  exact whole

/-- After the words that add the constraint there are no such words again. -/
theorem silent_addition_tail (rest : Silent (readAddition kind) (addition.demand.chars ++ next)) :
    Silent (readAddition kind)
      ("DD CONSTRAINT".toList ++ (addition.nameGap.chars ++ (addition.named ++ next))) := by
  have unadded : readCaseless " CONSTRAINT".toList
      (addition.demandGap.chars ++ (addition.demand.chars ++ next)) = none :=
    readCaseless_space (by decide) addition.demandGap.blank (addition.demand.solidFirst next)
      (addition.demand.readCaseless_constraint next)
  rw [addition.named_append]
  exact silent_addition_name ⟨addition.nameGap.filled, addition.nameGap.blank⟩
    addition.name.stopFree (addition.stopFirst_demand next) unadded
    (silent_addition_gap addition.demandGap.blank rest)

/-- Nothing is added for a kind without its keyword, or under another name. -/
theorem readAddition_eq_none
    (other : (kind.keyword ≠ addition.demand.kind.keyword ∧ addition.demand.Apart kind next ∧
        StopFirst next ∧ Silent (readDefinition kind) next) ∨
      ¬ Named kind addition.name.chars) :
    readAddition kind (addition.text ++ next) = none := by
  rcases other with ⟨other, apart, stop, rest⟩ | unnamed
  · exact silent_readAddition (addition.silent_definition other apart stop rest)
      addition.addGap.chars _ rfl
  · rw [addition.text_append, addition.named_append]
    exact readAddition_of_not_named (spells_refl _)
      ⟨addition.nameGap.filled, addition.nameGap.blank⟩ addition.name.filled
      addition.name.stopFree (addition.stopFirst_demand next) unnamed

end Addition

namespace Declaration

variable (declaration : Declaration)

/-- The table with the blanks around it. -/
def tableText : List Char :=
  declaration.tableGap.chars ++ (declaration.table.chars ++ declaration.addGap.chars)

theorem find?_eq : find? kind declaration.chars =
    (readAddition kind declaration.added.text).map fun (name, column) =>
      (0, ⟨declaration.tableText, name, column⟩) := by
  have demand : Silent (readAddition kind) (declaration.demand.chars ++ []) := by
    rw [List.append_nil]
    exact declaration.demand.silent_addition
  have tail := declaration.added.silent_addition_tail demand
  rw [List.append_nil] at tail
  exact find?_single ⟨declaration.tableGap.filled, declaration.tableGap.blank⟩
    declaration.table.stopFree ⟨declaration.addGap.filled, declaration.addGap.blank⟩ tail

/-- Where a name and column are read after the words that add the constraint,
they are found with the table. -/
theorem find?_of_readName {name column : List Char}
    (read : readName kind declaration.added.named = some (name, column)) :
    find? kind declaration.chars = some (0, ⟨declaration.tableText, name, column⟩) := by
  have addition : readAddition kind declaration.added.text = some (name, column) :=
    readAddition_run (spells_refl _) ⟨declaration.nameGap.filled, declaration.nameGap.blank⟩
      (declaration.name.solidFirst _) read
  rw [find?_eq, addition]
  rfl

theorem find?_declared (same : kind.keyword = declaration.demand.kind.keyword)
    (begins : Named kind declaration.name.chars) :
    find? kind declaration.chars = some (0, ⟨declaration.tableText,
      declaration.name.chars ++ declaration.demandGap.chars.dropLast,
      declaration.demand.column.chars⟩) := by
  have spells : Spells kind.keyword.toList declaration.demand.kind.keyword.toList := by
    rw [same]
    exact spells_refl _
  have absent : Absent "REFERENCES".toList [] := by decide
  have column := declaration.demand.readColumn_eq same fun _ => absent
  rw [List.append_nil] at column
  exact declaration.find?_of_readName (readName_declared begins
    ⟨declaration.demandGap.filled, declaration.demandGap.blank⟩ spells declaration.demand.gap.blank
    column (declaration.demand.silent_chars (declaration.demand.not_reopens same)))

theorem find?_undeclared
    (other : ¬ (kind.keyword = declaration.demand.kind.keyword ∧ Named kind declaration.name.chars))
    (apart : ¬ declaration.demand.Reopens kind) : find? kind declaration.chars = none := by
  have unread : readAddition kind (declaration.added.text ++ []) = none := by
    apply declaration.added.readAddition_eq_none
    by_cases same : kind.keyword = declaration.demand.kind.keyword
    · exact Or.inr fun begins => other ⟨same, begins⟩
    · exact Or.inl ⟨same, .of_not_reopens apart, stopFirst_nil, silent_nil rfl⟩
  rw [List.append_nil] at unread
  rw [find?_eq, unread]
  rfl

/-- The text from the name to the opening parenthesis. -/
def opening : List Char :=
  declaration.name.chars ++ (declaration.demandGap.chars ++
    (declaration.demand.kind.keyword.toList ++ (declaration.demand.gap.chars ++ ['('])))

/-- In a check that begins like a key, the name of the key takes in the start of
the check. -/
theorem find?_reopened (reopens : declaration.demand.Reopens kind) :
    ∃ spaces column, Blank spaces ∧ (∀ c ∈ column, isBlank c = false) ∧
      find? kind declaration.chars =
        some (0, ⟨declaration.tableText, declaration.opening ++ spaces, column⟩) := by
  have key := reopens.key
  obtain ⟨tableGap, table, addGap, nameGap, name, demandGap, demand⟩ := declaration
  cases demand with
  | primaryKey | unique | foreignKey => cases reopens
  | check gap before column condition =>
    obtain ⟨filled, keyword, keywordGap, inside, spells, blank, fits, shape⟩ := reopens
    obtain ⟨found, read⟩ := Option.ne_none_iff_exists'.mp fits.readColumn_ne_none
    have named : ∀ name, Named kind name := by
      intro name
      obtain rfl | rfl := key
      · exact ⟨[], name, List.Forall₂.nil, rfl⟩
      · exact ⟨[], name, List.Forall₂.nil, rfl⟩
    have quiet : Silent (readDefinition kind) (keyword ++ (keywordGap ++ '(' :: inside.text)) := by
      rw [← shape]
      exact silent_solid column.stopFree.solid condition.free.silent
    refine ⟨before.chars.dropLast, found, ?_, solid_of_readColumn read, find?_of_readName _ ?_⟩
    · exact fun c member => before.blank c (List.dropLast_subset _ member)
    · have nameRead := readName_declared (named (opening ⟨tableGap, table, addGap, nameGap, name,
        demandGap, .check gap before column condition⟩)) ⟨filled, before.blank⟩ spells blank read quiet
      rw [← shape] at nameRead
      rw [← nameRead, opening]
      simp only [List.append_assoc, List.singleton_append]
      rfl

end Declaration
end Search
end SchemaLint
