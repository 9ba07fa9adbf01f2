import SchemaLint.Proofs.ClauseWords

/-! What the readers of a clause answer, part by part. A definition is read after
the last blank before it, and a name from its first character on; a name can be
left out only where two blanks or more stand in its place. -/
namespace SchemaLint.Clause
open Text

section Definitions

variable {kind : ConstraintKind} {run rest : List Char}

/-- Reads an opening parenthesis and answers the column after it. -/
def readOpened (kind : ConstraintKind) : List Char → Option (List Char)
  | '(' :: rest => readColumn kind rest
  | _ => none

/-- A definition without the blanks before it. -/
def readBody (kind : ConstraintKind) (text : List Char) : Option (List Char) :=
  (readCaseless kind.keyword.toList text).bind fun rest => readOpened kind (trimStart rest)

theorem readDefinition_eq (kind : ConstraintKind) (text : List Char) :
    readDefinition kind text = (readBlanks text).bind (readBody kind) := rfl

theorem readDefinition_blanks (blanks : run ≠ [] ∧ Blank run) (solid : SolidFirst rest) :
    readDefinition kind (run ++ rest) = readBody kind rest := by
  rw [readDefinition_eq, readBlanks_run blanks.1 blanks.2 solid, Option.bind_some]

theorem readOpened_eq_some_iff {text column : List Char} :
    readOpened kind text = some column ↔
      ∃ rest, text = '(' :: rest ∧ readColumn kind rest = some column := by
  constructor
  · intro read
    unfold readOpened at read
    split at read
    · exact ⟨_, rfl, read⟩
    · cases read
  · rintro ⟨rest, rfl, read⟩
    exact read

/-- The text passed over takes all blanks before a definition but the last one. -/
theorem longestRun_definition_blanks (blanks : run ≠ [] ∧ Blank run) (solid : SolidFirst rest) :
    longestRun (fun _ => true) (readDefinition kind) (run ++ rest) =
      ((longestRun (fun _ => true) (readDefinition kind) rest).map fun (tail, column) =>
        (run ++ tail, column)).or
      ((readBody kind rest).map fun column => (run.dropLast, column)) := by
  induction run with
  | nil => exact absurd rfl blanks.1
  | cons b run ih =>
    have here : readDefinition kind (b :: (run ++ rest)) = readBody kind rest :=
      readDefinition_blanks blanks solid
    rw [List.cons_append, longestRun, if_pos rfl, here]
    by_cases last : run = []
    · subst last
      cases searched : longestRun (fun _ => true) (readDefinition kind) rest <;> simp [searched]
    · have others : run ≠ [] ∧ Blank run :=
        ⟨last, fun c member => blanks.2 c (List.mem_cons_of_mem _ member)⟩
      rw [ih others, List.dropLast_cons_of_ne_nil last]
      cases longestRun (fun _ => true) (readDefinition kind) rest with
      | some answer => rfl
      | none => cases readBody kind rest <;> rfl

end Definitions

section Names

variable {kind : ConstraintKind} {run rest : List Char}

theorem stopFree_nameStart (kind : ConstraintKind) : StopFree kind.nameStart.toList := by
  cases kind <;> decide

theorem readName_spelled {start : List Char} (spells : Spells kind.nameStart.toList start)
    (rest : List Char) :
    readName kind (start ++ rest) =
      (longestRun (fun _ => true) (readDefinition kind) rest).map fun (tail, column) =>
        (start ++ tail, column) := by
  have taken : (start ++ rest).take kind.nameStart.length = start := by
    rw [← String.length_toList, ← spells.length_eq, List.take_left]
  rw [readName, readCaseless_spells spells, taken]
  simp only [Option.bind_eq_bind, Option.bind_some]
  cases longestRun (fun _ => true) (readDefinition kind) rest <;> rfl

theorem readName_unread {text : List Char} (unread : readCaseless kind.nameStart.toList text = none) :
    readName kind text = none := by
  rw [readName, unread]
  rfl

/-- The empty name, which is read where the keyword comes instead of a name. -/
def readUnnamed (kind : ConstraintKind) (text : List Char) : Option (List Char × List Char) :=
  if kind.nameStart = "" then (readBody kind text).map fun column => ([], column) else none

theorem name_of_readUnnamed {found : List Char × List Char} (unnamed : readUnnamed kind rest = some found) :
    ([], found.2) = found := by
  rw [readUnnamed] at unnamed
  split at unnamed
  · obtain ⟨column, -, rfl⟩ := Option.map_eq_some_iff.mp unnamed
    rfl
  · cases unnamed

/-- At blanks a name is read that begins with them, or else the empty one. -/
theorem readName_blanks (blanks : run ≠ [] ∧ Blank run) (solid : SolidFirst rest)
    (unread : readName kind rest = none) :
    readName kind (run ++ rest) =
      (readUnnamed kind rest).map fun (_, column) => (run.dropLast, column) := by
  rw [readUnnamed]
  split
  · rename_i start
    have spells : Spells kind.nameStart.toList [] := by rw [start]; exact .nil
    have nowhere : longestRun (fun _ => true) (readDefinition kind) rest = none := by
      have named := readName_spelled spells rest
      rw [List.nil_append, unread] at named
      exact Option.map_eq_none_iff.mp named.symm
    rw [← List.nil_append (run ++ rest), readName_spelled spells,
      longestRun_definition_blanks blanks solid, nowhere]
    cases readBody kind rest <;> rfl
  · rename_i start
    obtain ⟨p, word, shape⟩ :=
      List.exists_cons_of_ne_nil (mt String.toList_eq_nil_iff.mp start)
    have plain : ¬ IsStop p := stopFree_nameStart kind p (by rw [shape]; exact List.mem_cons_self)
    obtain ⟨b, more, filled, blank⟩ := exists_blank_head blanks rest
    apply readName_unread
    rw [shape, filled]
    exact readCaseless_stop plain (Or.inl blank)

/-- The blanks before a name are not part of it; the empty name takes the last one
to be the gap before the keyword. -/
theorem longestRun_name_blanks (blank : Blank run) (solid : SolidFirst rest) :
    (longestRun isBlank (readName kind) (run ++ rest)).map Prod.snd =
      (readName kind rest).or (if run = [] then none else readUnnamed kind rest) := by
  induction run with
  | nil =>
    rw [List.nil_append, if_pos rfl, Option.or_none]
    cases rest with
    | nil => rw [longestRun, Option.map_map, Function.comp_def, Option.map_id']
    | cons c rest =>
      have first : isBlank c = false := solid c rfl
      rw [longestRun, if_neg (by simp [first]), Option.map_map, Function.comp_def, Option.map_id']
  | cons b run ih =>
    have others : Blank run := fun c member => blank c (List.mem_cons_of_mem _ member)
    have later := ih others
    rw [List.cons_append, longestRun, if_pos (blank b List.mem_cons_self), if_neg (List.cons_ne_nil _ _)]
    cases named : readName kind rest with
    | some found =>
      rw [named, Option.some_or] at later
      obtain ⟨answer, searched, rfl⟩ := Option.map_eq_some_iff.mp later
      rw [searched]
      rfl
    | none =>
      have here : readName kind (b :: (run ++ rest)) =
          (readUnnamed kind rest).map fun (_, column) => ((b :: run).dropLast, column) :=
        readName_blanks ⟨List.cons_ne_nil _ _, blank⟩ solid named
      rw [named, Option.none_or] at later
      rw [Option.none_or, here]
      cases unnamed : readUnnamed kind rest with
      | none =>
        have nothing : longestRun isBlank (readName kind) (run ++ rest) = none := by
          simpa [unnamed] using later
        rw [nothing]
        rfl
      | some found =>
        by_cases last : run = []
        · -- the only blank left is the gap before the keyword
          rw [if_pos last, Option.map_eq_none_iff] at later
          rw [later, last, ← name_of_readUnnamed unnamed]
          rfl
        · rw [if_neg last, unnamed] at later
          obtain ⟨answer, searched, rfl⟩ := Option.map_eq_some_iff.mp later
          rw [searched]
          rfl

theorem readAddition_blanks {add : List Char} (spells : Spells "ADD CONSTRAINT".toList add)
    (blanks : run ≠ [] ∧ Blank run) (solid : SolidFirst rest) :
    readAddition kind (add ++ (run ++ rest)) =
      (readName kind rest).or (if run.tail = [] then none else readUnnamed kind rest) := by
  obtain ⟨b, run, rfl⟩ := List.exists_cons_of_ne_nil blanks.1
  have others : Blank run := fun c member => blanks.2 c (List.mem_cons_of_mem _ member)
  rw [List.tail_cons, ← longestRun_name_blanks others solid, readAddition, readCaseless_spells spells]
  simp only [Option.bind_eq_bind, Option.bind_some, List.cons_append]
  exact if_pos (blanks.2 b List.mem_cons_self)

theorem readAddition_solid {add : List Char} (spells : Spells "ADD CONSTRAINT".toList add)
    (solid : SolidFirst rest) : readAddition kind (add ++ rest) = none := by
  rw [readAddition, readCaseless_spells spells]
  cases rest with
  | nil => rfl
  | cons c rest => exact if_neg (by simp [solid c rfl])

/-- A name that begins in another way is not taken for one of the kind. -/
theorem readName_of_not_named {name next : List Char} (stop : StopFirst next)
    (unnamed : ¬ Named kind name) : readName kind (name ++ next) = none := by
  apply readName_unread
  rw [readCaseless_stopFirst (stopFree_nameStart kind) stop, Option.map_eq_none_iff]
  by_contra read
  obtain ⟨rest, read⟩ := Option.ne_none_iff_exists'.mp read
  obtain ⟨begins, spells, rfl⟩ := readCaseless_eq_some_iff.mp read
  exact unnamed ⟨begins, rest, spells, rfl⟩

theorem readAddition_of_not_named {add gap name next : List Char}
    (spells : Spells "ADD CONSTRAINT".toList add) (blanks : gap ≠ [] ∧ Blank gap)
    (filled : name ≠ []) (free : StopFree name) (stop : StopFirst next)
    (unnamed : ¬ Named kind name) : readAddition kind (add ++ (gap ++ (name ++ next))) = none := by
  have start : kind.nameStart ≠ "" := by
    intro empty
    exact unnamed ⟨[], name, by rw [empty]; exact .nil, rfl⟩
  rw [readAddition_blanks spells blanks (free.solidFirst filled next),
    readName_of_not_named stop unnamed, readUnnamed, if_neg start, ite_self, Option.or_none]

end Names

section Clauses

variable {kind : ConstraintKind}

theorem read_unread {text : List Char} (unread : readCaseless "ALTER TABLE".toList text = none) :
    read kind text = none := by
  rw [read, unread]
  rfl

theorem read_spelled {alter : List Char} (spells : Spells "ALTER TABLE".toList alter)
    (rest : List Char) :
    read kind (alter ++ rest) =
      (longestRun (fun _ => true) (readAddition kind) rest).map fun (table, name, column) =>
        ⟨table, name, column⟩ := by
  rw [read, readCaseless_spells spells]
  simp only [Option.bind_eq_bind, Option.bind_some]
  cases longestRun (fun _ => true) (readAddition kind) rest <;> rfl

/-- The table reaches up to the last addition that is read. -/
theorem find?_of_readAddition (table : List Char) {rest name column : List Char} {a : Char}
    (read : readAddition kind (a :: rest) = some (name, column))
    (quiet : Silent (readAddition kind) rest) :
    find? kind ("ALTER TABLE".toList ++ (table ++ a :: rest)) = some (0, ⟨table, name, column⟩) := by
  have longest : Longest (fun _ => true) (readAddition kind) table (a :: rest) (name, column) := by
    refine ⟨by simp, read, ?_⟩
    intro more left split filled _
    obtain ⟨c, more, rfl⟩ := List.exists_cons_of_ne_nil filled
    exact quiet more left (List.cons.inj split).2
  apply searchFirst_here
  rw [read_spelled (spells_refl _), longest.longestRun_eq]
  rfl

/-- Nothing is added before the words that add something. -/
theorem silent_addition_table {tableGap table addGap rest : List Char}
    (tableBlanks : tableGap ≠ [] ∧ Blank tableGap) (free : StopFree table)
    (addBlanks : addGap ≠ [] ∧ Blank addGap)
    (quiet : Silent (readAddition kind) ("ADD CONSTRAINT".toList ++ rest)) :
    Silent (readAddition kind) ("ALTER TABLE".toList ++
      (tableGap ++ (table ++ (addGap ++ ("ADD CONSTRAINT".toList ++ rest))))) := by
  have differs : readCaseless "CONSTRAINT".toList ("ADD CONSTRAINT".toList ++ rest) = none :=
    readCaseless_append_none (by decide) _
  have unadded : readCaseless " CONSTRAINT".toList (addGap ++ ("ADD CONSTRAINT".toList ++ rest)) =
      none :=
    readCaseless_space (by decide) addBlanks.2 (solidFirst_cons rfl _) differs
  have named : Silent (readAddition kind)
      (tableGap ++ (table ++ (addGap ++ ("ADD CONSTRAINT".toList ++ rest)))) :=
    silent_addition_gap tableBlanks.2 (silent_addition_word free
      (stopFirst_filled addBlanks.1 addBlanks.2 _) (fun _ _ _ _ => unadded)
      (silent_addition_gap addBlanks.2 quiet))
  have words : Unadding "ALTER".toList ∧ Unadding "TABLE".toList := by decide
  have whole : Silent (readAddition kind) ("ALTER".toList ++ ([' '] ++ ("TABLE".toList ++
      (tableGap ++ (table ++ (addGap ++ ("ADD CONSTRAINT".toList ++ rest))))))) :=
    words.1.silent (stopFirst_cons (Or.inl rfl) _) (silent_addition_gap (blank_singleton rfl)
      (words.2.silent (stopFirst_filled tableBlanks.1 tableBlanks.2 _) named))
  exact whole

/-- A name adds nothing, unless the second word of an addition follows it. -/
theorem silent_addition_name {nameGap name next : List Char}
    (blanks : nameGap ≠ [] ∧ Blank nameGap) (free : StopFree name) (stop : StopFirst next)
    (unadded : readCaseless " CONSTRAINT".toList next = none)
    (quiet : Silent (readAddition kind) next) :
    Silent (readAddition kind) ("DD CONSTRAINT".toList ++ (nameGap ++ (name ++ next))) := by
  have named : Silent (readAddition kind) (nameGap ++ (name ++ next)) :=
    silent_addition_gap blanks.2 (silent_addition_word free stop (fun _ _ _ _ => unadded) quiet)
  have words : Unadding "DD".toList ∧ Unadding "CONSTRAINT".toList := by decide
  have whole : Silent (readAddition kind) ("DD".toList ++ ([' '] ++ ("CONSTRAINT".toList ++
      (nameGap ++ (name ++ next))))) :=
    words.1.silent (stopFirst_cons (Or.inl rfl) _) (silent_addition_gap (blank_singleton rfl)
      (words.2.silent (stopFirst_filled blanks.1 blanks.2 _) named))
  exact whole

/-- With a single addition, what is read there is all that is found. -/
theorem find?_single {tableGap table addGap rest : List Char}
    (tableBlanks : tableGap ≠ [] ∧ Blank tableGap) (free : StopFree table)
    (addBlanks : addGap ≠ [] ∧ Blank addGap)
    (quiet : Silent (readAddition kind) ("DD CONSTRAINT".toList ++ rest)) :
    find? kind ("ALTER TABLE".toList ++
        (tableGap ++ (table ++ (addGap ++ ("ADD CONSTRAINT".toList ++ rest))))) =
      (readAddition kind ("ADD CONSTRAINT".toList ++ rest)).map fun (name, column) =>
        (0, ⟨tableGap ++ (table ++ addGap), name, column⟩) := by
  cases read : readAddition kind ("ADD CONSTRAINT".toList ++ rest) with
  | none =>
    exact find?_eq_none_of_silent
      (silent_addition_table tableBlanks free addBlanks (silent_cons read quiet))
  | some found =>
    have here := find?_of_readAddition (tableGap ++ (table ++ addGap)) read quiet
    rw [List.append_assoc, List.append_assoc] at here
    exact here

end Clauses
end SchemaLint.Clause
