import SchemaLint.Proofs.Alteration

/-! Which clauses are found in the text of an alteration. A name is read from the
last addition that opens as its kind demands and has the keyword in it or after
it; it reaches up to the last such keyword, and the table up to that addition. -/
namespace SchemaLint
open Text Clause

section Additions

variable {kind : ConstraintKind} {next : List Char}

theorem Identifier.silent_addition (name : Identifier) {before after next : List Char} {mark : Char}
    (blankBefore : Blank before) (blankAfter : Blank after) (stop : IsStop mark)
    (solid : isBlank mark = false) (rest : Silent (readAddition kind) next) :
    Silent (readAddition kind) (before ++ (name.chars ++ (after ++ mark :: next))) := by
  have unadded : readCaseless " CONSTRAINT".toList (after ++ mark :: next) = none :=
    readCaseless_space (by decide) blankAfter (solidFirst_cons solid next)
      (readCaseless_stop (by decide) stop)
  exact silent_addition_gap blankBefore (silent_addition_word name.stopFree
    (stopFirst_gap blankAfter (stopFirst_cons stop next)) (fun _ _ _ _ => unadded)
    (silent_addition_gap blankAfter (silent_addition_stop stop rest)))

theorem Reference.silent_addition (reference : Reference) (rest : Silent (readAddition kind) next) :
    Silent (readAddition kind) (reference.chars ++ next) := by
  have keyword : Unadding "REFERENCES".toList := by decide
  rw [reference.chars_append]
  exact silent_addition_gap reference.gap.blank (keyword.silent
    (stopFirst_filled reference.tableGap.filled reference.tableGap.blank _)
    (reference.table.silent_addition reference.tableGap.blank reference.listGap.blank (by decide) rfl
      (reference.columns.silent_of Identifier.silent_addition rest)))

/-- A spelling has line breaks only where the word has them. -/
theorem unbroken_of_spells {word spelled : List Char} (spells : Spells word spelled)
    (unbroken : word.any isLineBreak = false) : spelled.any isLineBreak = false := by
  induction spells with
  | nil => rfl
  | @cons p c word spelled same _ ih =>
    rw [List.any_cons, Bool.or_eq_false_iff] at unbroken ⊢
    refine ⟨?_, ih unbroken.2⟩
    by_contra broken
    rw [Bool.not_eq_false] at broken
    rw [eq_of_sameLetter_blank (isBlank_of_isLineBreak broken) same, broken] at unbroken
    cases unbroken.1

/-- A word without line breaks is not lost on one line. -/
theorem absent_of_onOneLine {word text : List Char} (filled : word ≠ [])
    (unbroken : word.any isLineBreak = false) (absent : Absent word (onOneLine text)) :
    Absent word text := by
  rintro spelled spells ⟨before, rest, rfl⟩
  have some_spelled : spelled ≠ [] := by
    rintro rfl
    exact filled (List.length_eq_zero_iff.mp spells.length_eq.symm)
  refine absent spelled spells ⟨onOneLine before, onOneLine rest, ?_⟩
  rw [List.append_assoc, List.append_assoc,
    onOneLine_word some_spelled (unbroken_of_spells spells unbroken)]

/-- Closed demands add nothing. -/
theorem Demand.Closed.silent_addition {demand : Demand} (closed : demand.Closed)
    (stop : StopFirst next) (unadded : readCaseless " CONSTRAINT".toList next = none)
    (rest : Silent (readAddition kind) next) : Silent (readAddition kind) (demand.chars ++ next) := by
  have inside : Silent (readAddition kind) (demand.inside ++ next) := by
    cases demand with
    | primaryKey gap columns | unique gap columns =>
      rw [inside, List.append_assoc]
      exact columns.silent_of Identifier.silent_addition rest
    | foreignKey gap columns reference =>
      rw [inside, List.append_assoc]
      exact columns.silent_of Identifier.silent_addition (reference.silent_addition rest)
    | check gap before column condition =>
      rw [inside, List.append_assoc]
      exact silent_addition_gap before.blank
        ((absent_of_onOneLine (by decide) (by decide) closed.2.2).silent_addition stop unadded rest)
  have opening : Silent (readAddition kind) (demand.gap.chars ++ '(' :: (demand.inside ++ next)) :=
    silent_addition_gap demand.gap.blank (silent_addition_stop (by decide) inside)
  have stop : StopFirst (demand.gap.chars ++ '(' :: (demand.inside ++ next)) :=
    stopFirst_gap demand.gap.blank (stopFirst_cons (by decide) _)
  have key : Silent (readAddition kind)
      ([' '] ++ ("KEY".toList ++ (demand.gap.chars ++ '(' :: (demand.inside ++ next)))) := by
    have word : Unadding "KEY".toList := by decide
    exact silent_addition_gap (blank_singleton rfl) (word.silent stop opening)
  have heads : ∀ kind, Unadding (keywordHead kind) := by
    intro kind
    cases kind <;> decide
  rw [chars_append]
  cases demand.kind with
  | check | notNull | uniqueKey => exact (heads _).silent stop opening
  | primaryKey | foreignKey => exact (heads _).silent (stopFirst_cons (by decide) _) key

theorem Demand.Closed.apart {demand : Demand} (closed : demand.Closed) (next : List Char) :
    demand.Apart kind next := by
  cases demand with
  | primaryKey | unique | foreignKey => trivial
  | check gap before column condition =>
    intro _
    have stop : StopFirst (condition.chars ++ next) := by
      obtain ⟨c, rest, shape, blank⟩ := condition.spaced
      rw [shape]
      exact stopFirst_cons (Or.inl blank) _
    exact not_opens_of_not_spells (closed.1.other kind) column.stopFree stop

end Additions

section Lists

variable {kind : ConstraintKind} {additions : List Addition}

theorem stopFirst_additions (additions : List Addition) :
    StopFirst (additions.flatMap Addition.chars) := by
  cases additions with
  | nil => exact stopFirst_nil
  | cons addition rest =>
    rw [List.flatMap_cons, Addition.chars, List.append_assoc]
    exact stopFirst_filled addition.addGap.filled addition.addGap.blank _

theorem readCaseless_additions (additions : List Addition) :
    readCaseless " CONSTRAINT".toList (additions.flatMap Addition.chars) = none := by
  cases additions with
  | nil => rfl
  | cons addition rest =>
    have differs : readCaseless "CONSTRAINT".toList ("ADD CONSTRAINT".toList ++
        (addition.nameGap.chars ++ (addition.named ++ rest.flatMap Addition.chars))) = none :=
      readCaseless_append_none (by decide) _
    rw [List.flatMap_cons, Addition.chars, List.append_assoc, addition.text_append]
    exact readCaseless_space (by decide) addition.addGap.blank (solidFirst_cons rfl _) differs

/-- What is added for other kinds defines nothing of this one. -/
theorem silent_definitions (closed : ∀ addition ∈ additions, addition.Closed)
    (others : ∀ addition ∈ additions, kind.keyword ≠ addition.demand.kind.keyword) :
    Silent (readDefinition kind) (additions.flatMap Addition.chars) := by
  induction additions with
  | nil => exact silent_nil rfl
  | cons addition rest ih =>
    rw [List.forall_mem_cons] at closed others
    rw [List.flatMap_cons, Addition.chars, List.append_assoc]
    exact addition.silent_definition others.1 (closed.1.1.apart _) (stopFirst_additions rest)
      (ih closed.2 others.2)

theorem absent_references (closed : ∀ addition ∈ additions, addition.Closed)
    (others : ∀ addition ∈ additions, addition.demand.kind ≠ .foreignKey) :
    Absent "REFERENCES".toList (additions.flatMap Addition.chars) := by
  induction additions with
  | nil =>
    rw [List.flatMap_nil]
    decide
  | cons addition rest ih =>
    rw [List.forall_mem_cons] at closed others
    rw [List.flatMap_cons]
    exact (closed.1.2 others.1).append (by decide) (stopFirst_additions rest)
      (ih closed.2 others.2)

/-- After an addition named as the kind demands, its keyword does not come. -/
def Unread (kind : ConstraintKind) (additions : List Addition) : Prop :=
  ∀ front addition rest, additions = front ++ addition :: rest → Named kind addition.name.chars →
    ∀ later ∈ addition :: rest, kind.keyword ≠ later.demand.kind.keyword

theorem silent_additions (closed : ∀ addition ∈ additions, addition.Closed)
    (unread : Unread kind additions) :
    Silent (readAddition kind) (additions.flatMap Addition.chars) := by
  induction additions with
  | nil => exact silent_nil rfl
  | cons addition rest ih =>
    rw [List.forall_mem_cons] at closed
    have later := ih closed.2 fun front added after same =>
      unread (addition :: front) added after (by rw [same, List.cons_append])
    have here : readAddition kind (addition.text ++ rest.flatMap Addition.chars) = none := by
      apply addition.readAddition_eq_none
      by_cases named : Named kind addition.name.chars
      · have others := List.forall_mem_cons.mp (unread [] addition rest rfl named)
        exact Or.inl ⟨others.1, closed.1.1.apart _, stopFirst_additions rest,
          silent_definitions closed.2 others.2⟩
      · exact Or.inr named
    rw [List.flatMap_cons, Addition.chars, List.append_assoc]
    refine silent_addition_gap addition.addGap.blank ?_
    rw [addition.text_append] at here ⊢
    exact silent_cons here (addition.silent_addition_tail (closed.1.1.silent_addition
      (stopFirst_additions rest) (readCaseless_additions rest) later))

end Lists

namespace Addition

/-- The text from the name of one addition to the name of a later one. -/
def declared (opener : Addition) : List Addition → List Char
  | [] => opener.name.chars
  | next :: rest => opener.named ++ (next.addGap.chars ++ ("ADD CONSTRAINT".toList ++
      (next.nameGap.chars ++ next.declared rest)))

theorem solidFirst_named (addition : Addition) (next : List Char) :
    SolidFirst (addition.named ++ next) := by
  rw [addition.named_append]
  exact addition.name.solidFirst _

theorem declared_cons (opener next : Addition) (rest : List Addition) :
    opener.declared (next :: rest) = opener.named ++ (next.addGap.chars ++
      ("ADD CONSTRAINT".toList ++ (next.nameGap.chars ++ next.declared rest))) := rfl

theorem named_flatMap (opener : Addition) (between after : List Addition) :
    opener.named ++ (between ++ after).flatMap chars = opener.declared between ++
      ((between.getLastD opener).demandGap.chars ++
        ((between.getLastD opener).demand.chars ++ after.flatMap chars)) := by
  induction between generalizing opener with
  | nil => exact opener.named_append _
  | cons next rest ih =>
    rw [List.cons_append, List.flatMap_cons, chars, List.append_assoc, next.text_append, ih,
      List.getLastD_cons, declared_cons]
    simp only [List.append_assoc]

theorem exists_declared_eq (opener : Addition) (between : List Addition) :
    (∃ rest, opener.declared between = opener.name.chars ++ rest) ∧
      ∃ front, opener.declared between = front ++ (between.getLastD opener).name.chars := by
  induction between generalizing opener with
  | nil => exact ⟨⟨[], (List.append_nil _).symm⟩, [], rfl⟩
  | cons next rest ih =>
    obtain ⟨-, front, ending⟩ := ih next
    rw [List.getLastD_cons, declared_cons, ending]
    refine ⟨⟨_, List.append_assoc _ _ _⟩, opener.named ++ (next.addGap.chars ++
      ("ADD CONSTRAINT".toList ++ (next.nameGap.chars ++ front))), ?_⟩
    simp only [List.append_assoc]

theorem trimmed_declared (opener : Addition) (between : List Addition) :
    Trimmed (opener.declared between) := by
  obtain ⟨⟨rest, starts⟩, front, ends⟩ := opener.exists_declared_eq between
  refine ⟨?_, ?_⟩
  · rw [starts]
    exact opener.name.solidFirst rest
  · intro c last
    rw [ends, List.getLast?_append_of_ne_nil _ (Identifier.filled _)] at last
    exact (Identifier.stopFree _).solid c (List.mem_of_mem_getLast? last)

end Addition

/-- The additions are cut where the kind takes its name from. The opener is the
last one that is named as the kind demands before the last of its keywords. -/
structure Cut (kind : ConstraintKind) (additions : List Addition) where
  before : List Addition
  opener : Addition
  between : List Addition
  after : List Addition
  split : additions = before ++ opener :: (between ++ after)
  named : Named kind opener.name.chars
  unnamed : ∀ addition ∈ between, ¬ Named kind addition.name.chars
  closes : kind.keyword = (between.getLastD opener).demand.kind.keyword
  last : ∀ addition ∈ after, kind.keyword ≠ addition.demand.kind.keyword

theorem exists_last {α : Type} {test : α → Prop} {list : List α} (present : ∃ a ∈ list, test a) :
    ∃ front a back, list = front ++ a :: back ∧ test a ∧ ∀ b ∈ back, ¬ test b := by
  induction list with
  | nil =>
    obtain ⟨a, member, -⟩ := present
    cases member
  | cons a list ih =>
    by_cases later : ∃ b ∈ list, test b
    · obtain ⟨front, b, back, rfl, holds, none⟩ := ih later
      exact ⟨a :: front, b, back, rfl, holds, none⟩
    · obtain ⟨b, member, holds⟩ := present
      rcases List.mem_cons.mp member with rfl | inside
      · exact ⟨[], b, list, rfl, holds, fun c present test => later ⟨c, present, test⟩⟩
      · exact absurd ⟨b, inside, holds⟩ later

namespace Cut

variable {kind : ConstraintKind} {additions : List Addition}

/-- The addition that the column is taken from. -/
def closer (cut : Cut kind additions) : Addition := cut.between.getLastD cut.opener

def declared (cut : Cut kind additions) : List Char := cut.opener.declared cut.between

theorem unread (cut : Cut kind additions) : Unread kind (cut.between ++ cut.after) := by
  intro front addition rest split named later member
  rcases List.append_eq_append_iff.mp split with ⟨more, -, shape⟩ | ⟨more, inside, shape⟩
  · exact cut.last later (shape ▸ List.mem_append_right _ member)
  · cases more with
    | nil =>
      rw [List.nil_append] at shape
      exact cut.last later (shape ▸ member)
    | cons first more =>
      obtain ⟨rfl, -⟩ := List.cons.inj shape
      exact absurd named (cut.unnamed _ (inside ▸ List.mem_append_right _ List.mem_cons_self))

/-- Where there is no cut, nothing is read: an addition named as the kind demands
with the keyword in it or after it would make one. -/
theorem unread_of_uncut (uncut : ¬ Nonempty (Cut kind additions)) : Unread kind additions := by
  rintro front addition rest rfl named later member same
  have keyword : ∃ added ∈ addition :: rest, kind.keyword = added.demand.kind.keyword :=
    ⟨later, member, same⟩
  obtain ⟨left, closing, after, shape, closes, last⟩ := exists_last keyword
  have begins : ∃ added ∈ left ++ [closing], Named kind added.name.chars := by
    refine ⟨addition, ?_, named⟩
    cases left with
    | nil => exact (List.cons.inj shape).1 ▸ List.mem_cons_self
    | cons first left => exact (List.cons.inj shape).1 ▸ List.mem_cons_self
  obtain ⟨skipped, opener, between, cut, opened, unnamed⟩ := exists_last begins
  have closer : between.getLastD opener = closing := by
    have ends := congrArg List.getLast? cut
    rw [List.getLast?_concat, List.getLast?_append, List.getLast?_cons] at ends
    simpa [List.getLastD_eq_getLast?] using ends.symm
  refine uncut ⟨⟨front ++ skipped, opener, between, after, ?_, opened, unnamed, closer ▸ closes,
    last⟩⟩
  have whole : left ++ closing :: after = left ++ [closing] ++ after := by simp
  rw [shape, whole, cut]
  simp

theorem mem_additions (cut : Cut kind additions) {addition : Addition}
    (member : addition ∈ cut.before ∨ addition ∈ cut.opener :: cut.between ∨ addition ∈ cut.after) :
    addition ∈ additions := by
  rw [cut.split]
  simp only [List.mem_append, List.mem_cons] at member ⊢
  tauto

theorem flatMap_eq (cut : Cut kind additions) : additions.flatMap Addition.chars =
    cut.before.flatMap Addition.chars ++ (cut.opener.addGap.chars ++ (cut.opener.text ++
      (cut.between ++ cut.after).flatMap Addition.chars)) := by
  have split := congrArg (List.flatMap Addition.chars) cut.split
  rw [List.flatMap_append, List.flatMap_cons, Addition.chars, List.append_assoc] at split
  exact split

theorem closer_mem (cut : Cut kind additions) : cut.closer ∈ cut.opener :: cut.between :=
  List.getLastD_mem_cons

theorem named_declared (cut : Cut kind additions) : Named kind cut.declared := by
  obtain ⟨⟨rest, starts⟩, -⟩ := cut.opener.exists_declared_eq cut.between
  rw [declared, starts]
  exact cut.named.append rest

/-- Past the opener nothing is added for the kind. -/
theorem silent_addition_tail (cut : Cut kind additions)
    (closed : ∀ addition ∈ additions, addition.Closed) :
    Silent (readAddition kind) ("DD CONSTRAINT".toList ++ (cut.opener.nameGap.chars ++
      (cut.opener.named ++ (cut.between ++ cut.after).flatMap Addition.chars))) := by
  have opener := closed _ (cut.mem_additions (Or.inr (Or.inl List.mem_cons_self)))
  have rest : ∀ addition ∈ cut.between ++ cut.after, addition.Closed := by
    intro addition member
    refine closed addition (cut.mem_additions (Or.inr ?_))
    exact (List.mem_append.mp member).imp_left (List.mem_cons_of_mem _)
  exact cut.opener.silent_addition_tail (opener.1.silent_addition (stopFirst_additions _)
    (readCaseless_additions _) (silent_additions rest cut.unread))

/-- The name reaches from the opener to the closer, whose column is read. -/
theorem readName_eq (cut : Cut kind additions)
    (closed : ∀ addition ∈ additions, addition.Closed) :
    readName kind (cut.opener.named ++ (cut.between ++ cut.after).flatMap Addition.chars) =
      some (cut.declared ++ cut.closer.demandGap.chars.dropLast,
        cut.closer.demand.column.chars) := by
  have closer := closed _ (cut.mem_additions (Or.inr (Or.inl cut.closer_mem)))
  have after : ∀ addition ∈ cut.after, addition.Closed :=
    fun addition member => closed addition (cut.mem_additions (Or.inr (Or.inr member)))
  have spells : Spells kind.keyword.toList cut.closer.demand.kind.keyword.toList := by
    rw [cut.closes]
    exact spells_refl _
  have column := cut.closer.demand.readColumn_eq cut.closes fun foreign =>
    absent_references after fun addition member same =>
      cut.last addition member (by rw [foreign, same])
  have quiet := cut.closer.demand.silent (closer.1.apart _) (stopFirst_additions cut.after)
    (silent_definitions after cut.last)
  have text : cut.closer.demand.chars ++ cut.after.flatMap Addition.chars =
      cut.closer.demand.kind.keyword.toList ++ (cut.closer.demand.gap.chars ++
        '(' :: (cut.closer.demand.inside ++ cut.after.flatMap Addition.chars)) := by
    simp [Demand.chars]
  rw [text] at quiet
  rw [cut.opener.named_flatMap]
  change readName kind (cut.declared ++ (cut.closer.demandGap.chars ++
    (cut.closer.demand.chars ++ cut.after.flatMap Addition.chars))) = _
  rw [text]
  exact readName_declared cut.named_declared
    ⟨cut.closer.demandGap.filled, cut.closer.demandGap.blank⟩ spells cut.closer.demand.gap.blank
    column quiet

end Cut

namespace Alteration

variable {kind : ConstraintKind} (alteration : Alteration)

theorem find?_uncut (uncut : ¬ Nonempty (Cut kind alteration.additions)) :
    find? kind alteration.chars = none := by
  have quiet := silent_additions alteration.closed (Cut.unread_of_uncut uncut)
  rw [List.flatMap_cons, Addition.chars, List.append_assoc] at quiet
  have shape : alteration.chars = "ALTER TABLE".toList ++ (alteration.tableGap.chars ++
      (alteration.table.chars ++ (alteration.first.addGap.chars ++ (alteration.first.text ++
        alteration.others.flatMap Addition.chars)))) := by
    delta chars
    rw [additions, List.flatMap_cons, Addition.chars, List.append_assoc]
  rw [shape]
  exact find?_eq_none_of_silent (silent_addition_table
    ⟨alteration.tableGap.filled, alteration.tableGap.blank⟩ alteration.table.stopFree
    ⟨alteration.first.addGap.filled, alteration.first.addGap.blank⟩ quiet.of_append)

/-- The table reaches up to the opener of the cut. -/
def tableText (cut : Cut kind alteration.additions) : List Char :=
  alteration.tableGap.chars ++ (alteration.table.chars ++
    (cut.before.flatMap Addition.chars ++ cut.opener.addGap.chars))

theorem find?_cut (cut : Cut kind alteration.additions) :
    find? kind alteration.chars = some (0, ⟨alteration.tableText cut,
      cut.declared ++ cut.closer.demandGap.chars.dropLast, cut.closer.demand.column.chars⟩) := by
  have shape : alteration.chars = "ALTER TABLE".toList ++ (alteration.tableText cut ++
      ("ADD CONSTRAINT".toList ++ (cut.opener.nameGap.chars ++
        (cut.opener.named ++ (cut.between ++ cut.after).flatMap Addition.chars)))) := by
    delta chars
    rw [cut.flatMap_eq, cut.opener.text_append, tableText]
    simp only [List.append_assoc]
  have read := readAddition_run (spells_refl "ADD CONSTRAINT".toList)
    ⟨cut.opener.nameGap.filled, cut.opener.nameGap.blank⟩ (cut.opener.solidFirst_named _)
    (cut.readName_eq alteration.closed)
  rw [shape]
  exact find?_of_readAddition _ read (cut.silent_addition_tail alteration.closed)

end Alteration
end SchemaLint
