import SchemaLint.Proofs.AlteredClauses
import SchemaLint.Proofs.DeclaredNames

/-! Several constraints of one statement are not judged one by one. Each kind is
judged once, on its last constraint; all that was added before is taken for part
of the table. So a good name can be reported, and a bad one passed over. -/
namespace SchemaLint
open Text Clause

namespace Alteration

variable {kind : ConstraintKind} (alteration : Alteration)

/-- The table and all that is added to it before the opener. -/
def tableOf (cut : Cut kind alteration.additions) : List Char :=
  alteration.table.chars ++ cut.before.flatMap Addition.chars

theorem trimmed_tableOf (cut : Cut kind alteration.additions) : Trimmed (alteration.tableOf cut) := by
  refine ⟨alteration.table.solidFirst _, ?_⟩
  intro c last
  rw [tableOf] at last
  rcases List.eq_nil_or_concat cut.before with empty | ⟨front, addition, shape⟩
  · rw [empty, List.flatMap_nil, List.append_nil] at last
    exact alteration.table.stopFree.solid c (List.mem_of_mem_getLast? last)
  · have member : addition ∈ cut.before := by simp [shape]
    obtain ⟨body, closing⟩ :=
      (alteration.closed addition (cut.mem_additions (Or.inl member))).suffix_close
    rw [shape, List.concat_eq_append, List.flatMap_append, List.flatMap_singleton, ← closing,
      ← List.append_assoc, ← List.append_assoc, List.getLast?_concat] at last
    exact Option.some.inj last ▸ rfl

theorem trim_tableText (cut : Cut kind alteration.additions) :
    trim (alteration.tableText cut) = alteration.tableOf cut := by
  have padded := trim_pad alteration.tableGap.blank cut.opener.addGap.blank (alteration.tableOf cut)
  rw [trim_eq_self (alteration.trimmed_tableOf cut)] at padded
  rw [← padded, tableText, tableOf]
  simp only [List.append_assoc]

theorem trim_declared (cut : Cut kind alteration.additions) :
    trim (cut.declared ++ cut.closer.demandGap.chars.dropLast) = cut.declared := by
  have blank : Blank cut.closer.demandGap.chars.dropLast :=
    fun c member => cut.closer.demandGap.blank c (List.dropLast_subset _ member)
  exact (trim_pad blank_nil blank cut.declared).trans
    (trim_eq_self (cut.opener.trimmed_declared cut.between))

theorem misnamed?_iff {statement : Statement} {convention : NamingConvention}
    (chars : statement.chars = alteration.chars) :
    Check.misnamed? statement convention = none ↔
      ∀ cut : Cut convention.kind alteration.additions, cut.declared <:+: (convention.expectedName
        (String.ofList (alteration.tableOf cut))
        (String.ofList cut.closer.demand.column.chars)).toList := by
  have judged : ∀ cut : Cut convention.kind alteration.additions,
      Check.misnamed? statement convention = none ↔ cut.declared <:+: (convention.expectedName
        (String.ofList (alteration.tableOf cut))
        (String.ofList cut.closer.demand.column.chars)).toList := by
    intro cut
    have found := alteration.find?_cut cut
    rw [← chars] at found
    rw [Check.misnamed?_eq_none_iff found, trim_declared, trim_tableText,
      trim_eq_self cut.closer.demand.column.trimmed]
  constructor
  · exact fun passed cut => (judged cut).mp passed
  · intro parts
    by_cases some_cut : Nonempty (Cut convention.kind alteration.additions)
    · obtain ⟨cut⟩ := some_cut
      exact (judged cut).mpr (parts cut)
    · rw [Check.misnamed?, chars, alteration.find?_uncut some_cut, Check.judge?]

end Alteration

/-- No convention is reported iff for each of them the text between the names of
the opener and the closer is part of the name expected for the column of the
closer, with all earlier additions in the place of the table. -/
theorem Check.misnamed_alteration_iff (alteration : Alteration) :
    Check.misnamed NamingConvention.standard (.ofString (String.ofList alteration.chars)) = [] ↔
      ∀ convention ∈ NamingConvention.standard,
        ∀ cut : Cut convention.kind alteration.oneLine.additions,
          cut.declared <:+: (convention.expectedName (String.ofList (alteration.oneLine.tableOf cut))
            (String.ofList cut.closer.demand.column.chars)).toList := by
  have chars : (Statement.ofString (String.ofList alteration.chars)).chars =
      alteration.oneLine.chars := by
    rw [Statement.chars_ofString, String.toList_ofList, alteration.chars_oneLine]
  rw [Check.misnamed_eq, List.filterMap_eq_nil_iff]
  exact forall₂_congr fun convention _ => alteration.oneLine.misnamed?_iff chars

section Judgement

/-- An addition as a declaration of its own. -/
def Alteration.declaration (alteration : Alteration) (addition : Addition) : Declaration :=
  ⟨alteration.tableGap, alteration.table, addition.addGap, addition.nameGap, addition.name,
    addition.demandGap, addition.demand⟩

/-- Each name is part of the one that its own declaration calls for. -/
def Alteration.WellNamed (alteration : Alteration) : Prop :=
  ∀ addition ∈ alteration.additions, ∀ judgement ∈ (alteration.declaration addition).judgement?,
    addition.name.chars <:+: judgement.2

instance (alteration : Alteration) : Decidable alteration.WellNamed :=
  inferInstanceAs (Decidable (∀ addition ∈ alteration.additions,
    ∀ judgement ∈ (alteration.declaration addition).judgement?,
      addition.name.chars <:+: judgement.2))

def Identifier.inParentheses (column : Identifier) : ColumnList :=
  .single ⟨⟨[], blank_nil⟩, column, ⟨[], blank_nil⟩⟩

def spacedAddition (name : Identifier) (demand : Demand) : Addition :=
  ⟨.space, .space, name, .space, demand⟩

def shortTable : Identifier where
  chars := "t".toList
  filled := by decide
  plain := List.all_eq_true.mp rfl
  notCheck := by decide
  notUnique := by decide

/-- A primary key and a unique key, both named as they should be. -/
def alarmedAlteration : Alteration where
  tableGap := .space
  table := shortTable
  first := spacedAddition (.ofChars "PK_t".toList (by decide)) (.primaryKey Spacing.space.toPadding
    (Identifier.ofChars "a".toList (by decide)).inParentheses)
  others := [spacedAddition (.ofChars "UQ_t_b".toList (by decide)) (.unique Spacing.space.toPadding
    (Identifier.ofChars "b".toList (by decide)).inParentheses)]
  closed := List.forall_mem_cons.mpr
    ⟨by decide +kernel, List.forall_mem_singleton.mpr (by decide +kernel)⟩

/-- Two unique keys, the first of them with a bad name. -/
def maskedAlteration : Alteration where
  tableGap := .space
  table := shortTable
  first := spacedAddition (.ofChars "bad".toList (by decide)) (.unique Spacing.space.toPadding
    (Identifier.ofChars "a".toList (by decide)).inParentheses)
  others := [spacedAddition (.ofChars "UQ_t".toList (by decide)) (.unique Spacing.space.toPadding
    (Identifier.ofChars "b".toList (by decide)).inParentheses)]
  closed := List.forall_mem_cons.mpr
    ⟨by decide +kernel, List.forall_mem_singleton.mpr (by decide +kernel)⟩

/-- Being well named is neither enough to pass nor needed for it. -/
theorem misnamed_ne_wellNamed :
    String.ofList alarmedAlteration.chars =
      "ALTER TABLE t ADD CONSTRAINT PK_t PRIMARY KEY (a) ADD CONSTRAINT UQ_t_b UNIQUE (b)" ∧
    alarmedAlteration.WellNamed ∧
    Check.misnamed NamingConvention.standard
      (.ofString (String.ofList alarmedAlteration.chars)) ≠ [] ∧
    ¬ maskedAlteration.WellNamed ∧
    Check.misnamed NamingConvention.standard
      (.ofString (String.ofList maskedAlteration.chars)) = [] := by
  refine ⟨by decide, by decide +kernel, by decide +kernel, by decide +kernel, by decide +kernel⟩

end Judgement
end SchemaLint
