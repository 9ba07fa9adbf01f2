import SchemaLint.Check.ConstraintName
import SchemaLint.Proofs.ClauseReading
import SchemaLint.Proofs.Text.Reflowing

/-! Constraint clauses in texts with the same words. The keywords of two words are
read with a single space in them, and a constraint without a name is read only
after two blanks or more; where no other gaps change, the same clauses are
found. -/
namespace SchemaLint
open Text

namespace Clause

/-- The keywords of two words. -/
def spacedKeywords : List (String × String) :=
  [("ALTER", "TABLE"), ("ADD", "CONSTRAINT"), ("PRIMARY", "KEY"), ("FOREIGN", "KEY")]

/-- Words that are read together with the gap between them: those of a keyword,
and those of an addition that leaves the name out. -/
def boundWords : List (String × String) :=
  spacedKeywords ++ [("ADD CONSTRAINT", "PRIMARY KEY"), ("ADD CONSTRAINT", "FOREIGN KEY"),
    ("ADD CONSTRAINT", "UNIQUE")]

/-- Such a pair stands around a gap, in any case. -/
def Bound (before after : List Char) : Prop :=
  ∃ pair ∈ boundWords, (∃ spelled, Spells pair.1.toList spelled ∧ spelled <:+ before) ∧
    ∃ spelled, Spells pair.2.toList spelled ∧ spelled <+: after

/-- The texts have the same words, and no gap within a pair of bound words
differs. -/
abbrev Refilled (before left right : List Char) : Prop := Respaced (· = ·) Bound before left right

theorem bound_iff {before after : List Char} : Bound before after ↔ ∃ pair ∈ boundWords,
    Spells pair.1.toList (before.drop (before.length - pair.1.toList.length)) ∧
      (readCaseless pair.2.toList after).isSome = true := by
  apply exists_congr
  intro pair
  apply and_congr_right
  intro _
  apply and_congr
  · constructor
    · rintro ⟨spelled, spells, front, rfl⟩
      rwa [List.length_append, spells.length_eq, Nat.add_sub_cancel, List.drop_left]
    · exact fun spells => ⟨_, spells, List.drop_suffix _ _⟩
  · rw [Option.isSome_iff_exists]
    constructor
    · rintro ⟨spelled, spells, rest, rfl⟩
      exact ⟨rest, readCaseless_spells spells rest⟩
    · rintro ⟨rest, read⟩
      obtain ⟨spelled, spells, rfl⟩ := readCaseless_eq_some_iff.mp read
      exact ⟨spelled, spells, List.prefix_append _ _⟩

instance (before after : List Char) : Decidable (Bound before after) :=
  decidable_of_iff _ bound_iff.symm

/-- A word and the gap after it, before texts that are laid out already. -/
theorem Refilled.token {before word gap other left right : List Char}
    (fits : word.all (fun c => !isBlank c) = true ∧ (gap ≠ [] ∧ gap.all isBlank = true) ∧
      (other ≠ [] ∧ other.all isBlank = true) ∧ trimStart left = left ∧
      (gap = other ∨ ¬ Bound (before ++ word) left))
    (rest : Refilled (before ++ word ++ gap) left right) :
    Refilled before (word ++ (gap ++ left)) (word ++ (other ++ right)) := by
  obtain ⟨solid, blanks, others, first, unchanged⟩ := fits
  induction word generalizing before with
  | nil =>
    have solidFirst : SolidFirst left := first ▸ solidFirst_trimStart left
    rw [List.append_nil] at rest unchanged
    rw [List.nil_append, List.nil_append]
    exact .gap ⟨blanks.1, List.all_eq_true.mp blanks.2⟩ ⟨others.1, List.all_eq_true.mp others.2⟩
      solidFirst (fun bound => unchanged.resolve_right (not_not_intro bound)) rest
  | cons c word ih =>
    rw [List.all_cons, Bool.and_eq_true] at solid
    rw [← List.singleton_append, ← List.append_assoc before] at rest unchanged
    exact .char (by simpa using solid.1) rfl (ih rest solid.2 unchanged)

/-- Both texts begin with the same spelling of the word and go on alike, or
neither begins with one. -/
def ReadAlike (word before left right : List Char) : Prop :=
  readCaseless word left = none ∧ readCaseless word right = none ∨
    ∃ spelled rest otherRest, Spells word spelled ∧ left = spelled ++ rest ∧
      right = spelled ++ otherRest ∧ Refilled (before ++ spelled) rest otherRest

section Words

variable {before left right : List Char}

theorem readAlike_word {word : List Char} (solid : ∀ c ∈ word, isBlank c = false)
    (refilled : Refilled before left right) : ReadAlike word before left right := by
  rcases refilled.readCaseless sameLetter_of_eq solid with
    unread | ⟨spelled, other, rest, otherRest, spells, shape, -, otherShape, same, later⟩
  · exact Or.inl unread
  · obtain rfl : spelled = other := List.forall₂_eq_eq_eq ▸ same
    exact Or.inr ⟨spelled, rest, otherRest, spells, shape, otherShape, later⟩

theorem readCaseless_space_of_ne {p : Char} {word run : List Char} (plain : ¬ IsStop p)
    (blanks : run ≠ [] ∧ Blank run) (other : run ≠ [' ']) (rest : List Char) :
    readCaseless (' ' :: p :: word) (run ++ rest) = none := by
  obtain ⟨b, run, rfl⟩ := List.exists_cons_of_ne_nil blanks.1
  rw [List.cons_append, readCaseless, readBy]
  split
  · rename_i same
    obtain rfl := eq_of_sameLetter_blank (blanks.2 b List.mem_cons_self) same
    cases run with
    | nil => exact absurd rfl other
    | cons c run =>
      exact readCaseless_stop plain (Or.inl (blanks.2 c (by simp)))
  · rfl

theorem free_of_mem_spacedKeywords : ∀ pair ∈ spacedKeywords,
    StopFree pair.1.toList ∧ pair.2.toList ≠ [] ∧ StopFree pair.2.toList := by
  decide

/-- A space in a keyword is a gap of one blank, with the second word after it. -/
theorem readAlike_space {pair : String × String} (member : pair ∈ spacedKeywords)
    {spelled : List Char} (spells : Spells pair.1.toList spelled) (ends : spelled <:+ before)
    (refilled : Refilled before left right) :
    ReadAlike (' ' :: pair.2.toList) before left right := by
  obtain ⟨-, filled, free⟩ := free_of_mem_spacedKeywords pair member
  obtain ⟨p, word, shape⟩ := List.exists_cons_of_ne_nil filled
  have plain : ¬ IsStop p := free p (by rw [shape]; exact List.mem_cons_self)
  cases refilled with
  | done => exact Or.inl ⟨rfl, rfl⟩
  | @char _ left right c d solid same rest =>
    subst same
    have unread : ∀ text, readCaseless (' ' :: pair.2.toList) (c :: text) = none := by
      intro text
      refine if_neg fun same => ?_
      cases (isBlank_eq_of_sameLetter same).trans solid
    exact Or.inl ⟨unread left, unread right⟩
  | @gap _ run other left right blanks others solid unchanged rest =>
    rcases readAlike_word free.solid rest with ⟨unread, otherUnread⟩ |
      ⟨next, after, otherAfter, nextSpells, rfl, rfl, later⟩
    · rw [shape] at unread otherUnread ⊢
      exact Or.inl ⟨readCaseless_space plain blanks.2 solid unread,
        readCaseless_space plain others.2 (rest.solidFirst sameLetter_of_eq solid) otherUnread⟩
    · have bound : Bound before (next ++ after) :=
        ⟨pair, List.mem_append_left _ member, ⟨spelled, spells, ends⟩, next, nextSpells,
          List.prefix_append _ _⟩
      obtain rfl := unchanged bound
      by_cases single : run = [' ']
      · subst single
        rw [List.append_assoc] at later
        exact Or.inr ⟨' ' :: next, after, otherAfter, .cons (sameLetter_refl _) nextSpells, rfl, rfl,
          later⟩
      · rw [shape]
        exact Or.inl ⟨readCaseless_space_of_ne plain blanks single _,
          readCaseless_space_of_ne plain blanks single _⟩

theorem readAlike_spaced (pair : String × String) (member : pair ∈ spacedKeywords)
    (refilled : Refilled before left right) :
    ReadAlike (pair.1.toList ++ ' ' :: pair.2.toList) before left right := by
  rcases readAlike_word (free_of_mem_spacedKeywords pair member).1.solid refilled with
    ⟨unread, otherUnread⟩ | ⟨spelled, rest, otherRest, spells, rfl, rfl, later⟩
  · refine Or.inl ⟨?_, ?_⟩
    · rw [readCaseless_append, unread, Option.bind_none]
    · rw [readCaseless_append, otherUnread, Option.bind_none]
  · rcases readAlike_space member spells (List.suffix_append _ _) later with
      ⟨unread, otherUnread⟩ | ⟨next, after, otherAfter, nextSpells, rfl, rfl, last⟩
    · refine Or.inl ⟨?_, ?_⟩
      · rw [readCaseless_append, readCaseless_spells spells, Option.bind_some, unread]
      · rw [readCaseless_append, readCaseless_spells spells, Option.bind_some, otherUnread]
    · rw [List.append_assoc] at last
      exact Or.inr ⟨spelled ++ next, after, otherAfter, List.rel_append spells nextSpells,
        (List.append_assoc _ _ _).symm, (List.append_assoc _ _ _).symm, last⟩

theorem readAlike_keyword (kind : ConstraintKind) (refilled : Refilled before left right) :
    ReadAlike kind.keyword.toList before left right := by
  cases kind with
  | check | notNull => exact readAlike_word (stopFree_keywordHead .check).solid refilled
  | uniqueKey => exact readAlike_word (stopFree_keywordHead .uniqueKey).solid refilled
  | primaryKey => exact readAlike_spaced ("PRIMARY", "KEY") (by decide) refilled
  | foreignKey => exact readAlike_spaced ("FOREIGN", "KEY") (by decide) refilled

end Words

section Columns

variable {kind : ConstraintKind} {left right : List Char}

theorem columnOf_reflowed (kind : ConstraintKind) (reflowed : Reflowed left right) :
    columnOf kind left = columnOf kind right ∧
      Reflowed (afterColumn kind left) (afterColumn kind right) := by
  obtain ⟨place, trimmed⟩ := Respaced.trimStart sameLetter_of_eq reflowed
  have noBlank : ∀ b, isBlank b = true → columnChar kind b = false := by
    intro b blank
    by_contra inside
    cases blank.symm.trans (solid_of_columnChar (Bool.not_eq_false _ ▸ inside))
  obtain ⟨same, place, rest⟩ := trimmed.takeWhile noBlank fun same => congrArg (columnChar kind) same
  exact ⟨List.forall₂_eq_eq_eq ▸ same, rest.relaid⟩

theorem Ends.reflowed (ends : Ends kind left) (reflowed : Reflowed left right) : Ends kind right := by
  cases kind with
  | check | notNull =>
    obtain ⟨gap, rest, filled, blank, rfl⟩ := ends
    generalize shape : gap ++ rest = text at reflowed
    cases reflowed with
    | done => exact absurd (List.append_eq_nil_iff.mp shape).1 filled
    | char solid =>
      obtain ⟨b, gap, rfl⟩ := List.exists_cons_of_ne_nil filled
      obtain rfl := (List.cons.inj shape).1
      cases (blank b List.mem_cons_self).symm.trans solid
    | gap _ others => exact ⟨_, _, others.1, others.2, rfl⟩
  | primaryKey | uniqueKey =>
    intro c head
    cases reflowed with
    | done => cases head
    | char _ same =>
      obtain rfl := same
      exact ends c head
    | gap _ others =>
      obtain ⟨b, more, shape, blank⟩ := exists_blank_head others _
      rw [shape] at head
      obtain rfl := Option.some.inj head
      simp [isColumnChar, blank]
  | foreignKey =>
    rw [ends_foreignKey_iff] at ends ⊢
    obtain ⟨rest, closed, found⟩ := ends
    obtain ⟨place, trimmed⟩ := Respaced.trimStart sameLetter_of_eq reflowed
    rw [closed] at trimmed
    obtain ⟨other, otherClosed, rests⟩ := Reflowed.exists_rest_char rfl trimmed.relaid
    refine ⟨other, otherClosed, ?_⟩
    have references : StopFree "REFERENCES".toList := by decide
    rw [← found]
    refine (rests.anySuffix ?_ ?_).symm
    · intro b text blank
      have unread : readCaseless "REFERENCES".toList (b :: text) = none :=
        readCaseless_stop (by decide) (Or.inl blank)
      rw [unread]
      rfl
    · intro before left right respaced
      rcases respaced.readCaseless sameLetter_of_eq references.solid with
        ⟨unread, otherUnread⟩ | ⟨_, _, _, _, spells, rfl, otherSpells, rfl, -⟩
      · rw [unread, otherUnread]
      · rw [readCaseless_spells spells, readCaseless_spells otherSpells]
        rfl

theorem readPlain_reflowed (kind : ConstraintKind) (reflowed : Reflowed left right) :
    readPlain kind left = readPlain kind right := by
  obtain ⟨column, after⟩ := columnOf_reflowed kind reflowed
  have ends : Ends kind (afterColumn kind left) ↔ Ends kind (afterColumn kind right) :=
    ⟨fun ends => ends.reflowed after, fun ends => ends.reflowed after.symm⟩
  apply Option.ext
  intro found
  rw [readPlain_eq_some_iff, readPlain_eq_some_iff, column, ends]

/-- What is read after a mark does not see the layout if what reads it does not. -/
theorem reflowed_of_mark {α : Type} {read inner : List Char → Option α} {mark : Char}
    (solid : isBlank mark = false)
    (marked : ∀ {text found}, read text = some found ↔
      ∃ rest, text = mark :: rest ∧ inner rest = some found)
    (agrees : ∀ {left right}, Reflowed left right → inner left = inner right)
    (reflowed : Reflowed left right) : read left = read right := by
  have one : ∀ {left right found}, Reflowed left right → read left = some found →
      read right = some found := by
    intro left right found reflowed answered
    obtain ⟨rest, rfl, inside⟩ := marked.mp answered
    obtain ⟨other, rfl, rests⟩ := Reflowed.exists_rest_char solid reflowed
    exact marked.mpr ⟨other, rfl, agrees rests ▸ inside⟩
  apply Option.ext
  intro found
  exact ⟨one reflowed, one reflowed.symm⟩

theorem readAfterComma_reflowed (reflowed : Reflowed left right) :
    readAfterComma left = readAfterComma right :=
  reflowed_of_mark rfl readAfterComma_eq_some_iff (readPlain_reflowed .foreignKey) reflowed

theorem readLastColumn_reflowed (reflowed : Reflowed left right) :
    readLastColumn left = readLastColumn right := by
  have deaf : ∀ b text, isBlank b = true → readAfterComma (b :: text) = none := by
    intro b text blank
    unfold readAfterComma
    split
    · rename_i shape
      rw [(List.cons.inj shape).1] at blank
      cases blank
    · rfl
  have agrees : ∀ {before left right}, Respaced (· = ·) (fun _ _ => False) before left right →
      Option.Rel (· = ·) (readAfterComma left) (readAfterComma right) := by
    intro before left right respaced
    rw [readAfterComma_reflowed respaced.relaid]
    cases readAfterComma right with
    | none => exact .none
    | some column => exact .some rfl
  have found := Respaced.longestRun deaf agrees reflowed
  have closing : readClosingColumn left = readClosingColumn right :=
    readPlain_reflowed .foreignKey reflowed
  rw [readLastColumn, readLastColumn, closing]
  generalize longestRun (fun _ => true) readAfterComma left = answer,
    longestRun (fun _ => true) readAfterComma right = other at found ⊢
  cases found with
  | none => rfl
  | some same => exact congrArg some same.2

theorem readColumn_reflowed (reflowed : Reflowed left right) :
    readColumn kind left = readColumn kind right := by
  by_cases foreign : kind = .foreignKey
  · subst foreign
    exact readLastColumn_reflowed reflowed
  · rw [readColumn_of_ne_foreignKey foreign, readColumn_of_ne_foreignKey foreign,
      readPlain_reflowed kind reflowed]

end Columns

section Definitions

variable {kind : ConstraintKind} {before left right run rest : List Char}

theorem readBody_refilled (kind : ConstraintKind) (refilled : Refilled before left right) :
    readBody kind left = readBody kind right := by
  rcases readAlike_keyword kind refilled with ⟨unread, otherUnread⟩ |
    ⟨spelled, rest, otherRest, spells, rfl, rfl, later⟩
  · rw [readBody, readBody, unread, otherUnread]
  · obtain ⟨place, trimmed⟩ := later.trimStart sameLetter_of_eq
    rw [readBody, readBody, readCaseless_spells spells, readCaseless_spells spells, Option.bind_some,
      Option.bind_some]
    exact reflowed_of_mark rfl readOpened_eq_some_iff readColumn_reflowed trimmed.relaid

/-- The definitions that come last come after texts with the same words. -/
theorem longestRun_definition_refilled (kind : ConstraintKind)
    (refilled : Refilled before left right) :
    Option.Rel (fun found other => ReflowedFront found.1 other.1 ∧ found.2 = other.2)
      (longestRun (fun _ => true) (readDefinition kind) left)
      (longestRun (fun _ => true) (readDefinition kind) right) := by
  induction refilled with
  | done => exact .none
  | @char before left right c d solid same rest ih =>
    obtain rfl := same
    rw [longestRun, longestRun, if_pos rfl, if_pos rfl, readDefinition_solid solid,
      readDefinition_solid solid]
    generalize longestRun (fun _ => true) (readDefinition kind) left = found,
      longestRun (fun _ => true) (readDefinition kind) right = other at ih ⊢
    cases ih with
    | none => exact .none
    | some answers => exact .some ⟨answers.1.prepend (relaid_refl [c]), answers.2⟩
  | @gap before run other left right blanks others solid unchanged rest ih =>
    have body := readBody_refilled kind rest
    rw [longestRun_definition_blanks blanks solid,
      longestRun_definition_blanks others (rest.solidFirst sameLetter_of_eq solid), body]
    generalize longestRun (fun _ => true) (readDefinition kind) left = found,
      longestRun (fun _ => true) (readDefinition kind) right = otherFound at ih ⊢
    cases ih with
    | none =>
      cases readBody kind right with
      | none => exact .none
      | some column =>
        have front : ∀ {run : List Char}, Blank run → Blank run.dropLast :=
          fun blank b member => blank b (List.dropLast_subset _ member)
        exact .some ⟨reflowedFront_of_blank (front blanks.2) (front others.2), rfl⟩
    | some answers =>
      have gaps : Reflowed (run ++ []) (other ++ []) := Relaid.pad blanks others .done
      rw [List.append_nil, List.append_nil] at gaps
      exact .some ⟨answers.1.prepend gaps, answers.2⟩

end Definitions

section Additions

variable {kind : ConstraintKind} {before left right run rest : List Char}

/-- Answers that are a name, and a column, in two texts with the same words. -/
def SameAnswer (found other : List Char × List Char) : Prop :=
  ReflowedFront found.1 other.1 ∧ found.2 = other.2

theorem readName_refilled (kind : ConstraintKind) (refilled : Refilled before left right) :
    Option.Rel SameAnswer (readName kind left) (readName kind right) := by
  rcases readAlike_word (stopFree_nameStart kind).solid refilled with ⟨unread, otherUnread⟩ |
    ⟨start, rest, otherRest, spells, rfl, rfl, later⟩
  · rw [readName_unread unread, readName_unread otherUnread]
    exact .none
  · have found := longestRun_definition_refilled kind later
    rw [readName_spelled spells, readName_spelled spells]
    generalize longestRun (fun _ => true) (readDefinition kind) rest = answer,
      longestRun (fun _ => true) (readDefinition kind) otherRest = other at found ⊢
    cases found with
    | none => exact .none
    | some answers => exact .some ⟨answers.1.prepend (relaid_refl start), answers.2⟩

/-- Where the name is left out, the gap in its place is bound. -/
theorem bound_of_readUnnamed {add : List Char} (spells : Spells "ADD CONSTRAINT".toList add)
    (unnamed : readUnnamed kind rest ≠ none) : Bound (before ++ add) rest := by
  rw [readUnnamed] at unnamed
  split at unnamed
  · rename_i start
    have pair : ("ADD CONSTRAINT", kind.keyword) ∈ boundWords := by
      cases kind with
      | check | notNull => exact absurd start (by decide)
      | primaryKey | foreignKey | uniqueKey => decide
    refine ⟨_, pair, ⟨add, spells, List.suffix_append _ _⟩, ?_⟩
    cases spelled : readCaseless kind.keyword.toList rest with
    | none =>
      rw [readBody, spelled] at unnamed
      exact absurd rfl unnamed
    | some after =>
      obtain ⟨keyword, spells, rfl⟩ := readCaseless_eq_some_iff.mp spelled
      exact ⟨keyword, spells, List.prefix_append _ _⟩
  · exact absurd rfl unnamed

theorem readAddition_refilled (kind : ConstraintKind) (refilled : Refilled before left right) :
    Option.Rel SameAnswer (readAddition kind left) (readAddition kind right) := by
  rcases readAlike_spaced ("ADD", "CONSTRAINT") (by decide) refilled with ⟨unread, otherUnread⟩ |
    ⟨add, rest, otherRest, spells, rfl, rfl, later⟩
  · rw [readAddition_unread unread, readAddition_unread otherUnread]
    exact .none
  · cases later with
    | done =>
      rw [readAddition_solid spells (fun _ head => by cases head)]
      exact .none
    | char solid same =>
      obtain rfl := same
      rw [readAddition_solid spells (solidFirst_cons solid _),
        readAddition_solid spells (solidFirst_cons solid _)]
      exact .none
    | @gap _ run other left right blanks others solid unchanged rest =>
      have named := readName_refilled kind rest
      have unnamed : readUnnamed kind left = readUnnamed kind right := by
        rw [readUnnamed, readUnnamed, readBody_refilled kind rest]
      rw [readAddition_blanks spells blanks solid,
        readAddition_blanks spells others (rest.solidFirst sameLetter_of_eq solid)]
      generalize readName kind left = found, readName kind right = otherFound at named ⊢
      cases named with
      | some answers => exact .some answers
      | none =>
        rw [Option.none_or, Option.none_or, ← unnamed]
        cases read : readUnnamed kind left with
        | none =>
          rw [ite_self, ite_self]
          exact .none
        | some answer =>
          have present : readUnnamed kind left ≠ none := by
            rw [read]
            exact Option.some_ne_none answer
          obtain rfl := unchanged (bound_of_readUnnamed spells present)
          split
          · exact .none
          · exact .some ⟨Reflowed.front (relaid_refl answer.1), rfl⟩

end Additions

section Clauses

variable {kind : ConstraintKind} {before left right : List Char}

/-- Clauses whose texts have the same words. -/
structure SameWords (clause other : Clause) : Prop where
  table : Reflowed clause.table other.table
  name : ReflowedFront clause.name other.name
  column : clause.column = other.column

theorem read_refilled (kind : ConstraintKind) (refilled : Refilled before left right) :
    Option.Rel SameWords (read kind left) (read kind right) := by
  rcases readAlike_spaced ("ALTER", "TABLE") (by decide) refilled with ⟨unread, otherUnread⟩ |
    ⟨alter, rest, otherRest, spells, rfl, rfl, later⟩
  · rw [read_unread unread, read_unread otherUnread]
    exact .none
  · have deaf : ∀ b text, isBlank b = true → readAddition kind (b :: text) = none :=
      fun b text blank => readAddition_stop (Or.inl blank) text
    have found := later.longestRun deaf (readAddition_refilled kind)
    rw [read_spelled spells, read_spelled spells]
    generalize longestRun (fun _ => true) (readAddition kind) rest = answer,
      longestRun (fun _ => true) (readAddition kind) otherRest = other at found ⊢
    cases found with
    | none => exact .none
    | some answers => exact .some ⟨answers.1, answers.2.1, answers.2.2⟩

theorem find?_refilled (kind : ConstraintKind) (refilled : Refilled before left right) :
    Option.Rel SameWords ((find? kind left).map Prod.snd) ((find? kind right).map Prod.snd) := by
  have deaf : ∀ b text, isBlank b = true → read kind (b :: text) = none :=
    fun b text blank => read_unread (readCaseless_stop (by decide) (Or.inl blank))
  exact refilled.searchFirst deaf (read_refilled kind)

end Clauses
end Clause
end SchemaLint
