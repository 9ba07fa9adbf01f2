import Mathlib.Data.List.Forall2
import SchemaLint.Proofs.Text.Trimming
import SchemaLint.Proofs.Text.Uncased

/-! What the readers and searches find, said without running them. A search has
an answer where its reader has one at all; and of several places the first, or
the one after the longest run, is taken. -/
namespace SchemaLint.Text

/-- The text spells the word letter by letter, in any case. -/
def Spells (word text : List Char) : Prop :=
  List.Forall₂ (fun p c => sameLetter p c = true) word text

theorem Spells.length_eq {word text : List Char} (spells : Spells word text) :
    text.length = word.length :=
  (List.Forall₂.length_eq spells).symm

theorem spells_refl (word : List Char) : Spells word word := by
  induction word with
  | nil => exact List.Forall₂.nil
  | cons p word ih => exact List.Forall₂.cons (sameLetter_refl p) ih

theorem readCaseless_spells {word text : List Char} (spells : Spells word text)
    (rest : List Char) : readCaseless word (text ++ rest) = some rest := by
  induction spells with
  | nil => rfl
  | cons same _ ih => rwa [List.cons_append, readCaseless, readBy, if_pos same]

theorem readCaseless_eq_some_iff {word text rest : List Char} :
    readCaseless word text = some rest ↔ ∃ spelled, Spells word spelled ∧ text = spelled ++ rest := by
  constructor
  · intro read
    induction word generalizing text with
    | nil => exact ⟨[], List.Forall₂.nil, Option.some.inj read⟩
    | cons p word ih =>
      cases text with
      | nil => cases read
      | cons c text =>
        rw [readCaseless, readBy] at read
        split at read
        · rename_i same
          obtain ⟨spelled, spells, rfl⟩ := ih read
          exact ⟨c :: spelled, List.Forall₂.cons same spells, rfl⟩
        · cases read
  · rintro ⟨spelled, spells, rfl⟩
    exact readCaseless_spells spells rest

theorem spells_iff {word text : List Char} : Spells word text ↔ readCaseless word text = some [] := by
  simp [readCaseless_eq_some_iff]

instance (word text : List Char) : Decidable (Spells word text) :=
  decidable_of_iff _ spells_iff.symm

theorem readCaseless_append (first second text : List Char) :
    readCaseless (first ++ second) text =
      (readCaseless first text).bind (readCaseless second) := by
  induction first generalizing text with
  | nil => rfl
  | cons p first ih =>
    cases text with
    | nil => rfl
    | cons c text =>
      simp only [readCaseless, List.cons_append, readBy] at ih ⊢
      split
      · exact ih text
      · rfl

/-- A word is not read past a character that it cannot spell. -/
theorem readCaseless_append_apart {word tail : List Char}
    (apart : ∀ p ∈ word, ∀ c, tail.head? = some c → sameLetter p c = false) (text : List Char) :
    readCaseless word (text ++ tail) = (readCaseless word text).map (· ++ tail) := by
  induction word generalizing text with
  | nil => rfl
  | cons p word ih =>
    have rest := ih fun q member => apart q (List.mem_cons_of_mem _ member)
    cases text with
    | nil =>
      cases tail with
      | nil => rfl
      | cons c tail =>
        rw [List.nil_append, readCaseless, readBy, apart p List.mem_cons_self c rfl,
          if_neg Bool.false_ne_true]
        rfl
    | cons c text =>
      simp only [readCaseless, List.cons_append, readBy] at rest ⊢
      split
      · exact rest text
      · rfl

/-- Where a word differs from a text, it differs from every longer one. -/
theorem readCaseless_append_none {word text : List Char}
    (differs : readCaseless (word.take text.length) text = none) (rest : List Char) :
    readCaseless word (text ++ rest) = none := by
  induction word generalizing text with
  | nil =>
    rw [List.take_nil] at differs
    cases differs
  | cons p word ih =>
    cases text with
    | nil => cases differs
    | cons c text =>
      simp only [readCaseless, List.length_cons, List.take_succ_cons, List.cons_append, readBy]
        at ih differs ⊢
      split
      · rename_i same
        rw [if_pos same] at differs
        exact ih differs
      · rfl

/-- A word that is read is read before the end of a text, or across it. -/
theorem readCaseless_across {word text next left : List Char}
    (read : readCaseless word (text ++ next) = some left) :
    readCaseless word text ≠ none ∨ ∃ first second, word = first ++ second ∧ second ≠ [] ∧
      Spells first text ∧ readCaseless second next = some left := by
  induction text generalizing word with
  | nil =>
    cases word with
    | nil => exact Or.inl (Option.some_ne_none _)
    | cons p word => exact Or.inr ⟨[], p :: word, rfl, List.cons_ne_nil _ _, .nil, read⟩
  | cons c text ih =>
    cases word with
    | nil => exact Or.inl (Option.some_ne_none _)
    | cons p word =>
      rw [List.cons_append, readCaseless, readBy] at read
      split at read
      · rename_i same
        rcases ih read with inside | ⟨first, second, rfl, filled, spells, later⟩
        · refine Or.inl ?_
          rwa [readCaseless, readBy, if_pos same]
        · exact Or.inr ⟨p :: first, second, rfl, filled, .cons same spells, later⟩
      · cases read

theorem solidFirst_cons {c : Char} (solid : isBlank c = false) (text : List Char) :
    SolidFirst (c :: text) := by
  intro d head
  exact Option.some.inj head ▸ solid

theorem solid_of_sameLetter {p c : Char} (same : sameLetter p c = true)
    (solid : isBlank p = false) : isBlank c = false := by
  by_contra blank
  rw [Bool.not_eq_false] at blank
  obtain rfl := eq_of_sameLetter_blank blank same
  rw [solid] at blank
  cases blank

/-- What spells a word without blanks has none either. -/
theorem Spells.solid {word text : List Char} (spells : Spells word text)
    (solid : ∀ p ∈ word, isBlank p = false) : ∀ c ∈ text, isBlank c = false := by
  induction spells with
  | nil => exact List.forall_mem_nil _
  | @cons p c word text same _ ih =>
    intro d member
    rcases List.mem_cons.mp member with rfl | later
    · exact solid_of_sameLetter same (solid p List.mem_cons_self)
    · exact ih (fun q inside => solid q (List.mem_cons_of_mem _ inside)) d later

theorem Spells.solidFirst {p : Char} {word text : List Char} (spells : Spells (p :: word) text)
    (solid : isBlank p = false) (rest : List Char) : SolidFirst (text ++ rest) := by
  cases spells with
  | cons same _ => exact solidFirst_cons (solid_of_sameLetter same solid) _

section Runs

variable {accept : Char → Bool}

theorem takeWhile_run {run rest : List Char} (all : ∀ c ∈ run, accept c = true)
    (stop : ∀ c, rest.head? = some c → accept c = false) :
    (run ++ rest).takeWhile accept = run := by
  rw [List.takeWhile_append_of_pos all]
  cases rest with
  | nil => simp
  | cons c rest => simp [stop c rfl]

theorem dropWhile_run {run rest : List Char} (all : ∀ c ∈ run, accept c = true)
    (stop : ∀ c, rest.head? = some c → accept c = false) :
    (run ++ rest).dropWhile accept = rest := by
  rw [List.dropWhile_append_of_pos all]
  cases rest with
  | nil => rfl
  | cons c rest => simp [stop c rfl]

/-- A text has only one run at its start that cannot be made longer. -/
theorem run_unique {run rest run' rest' : List Char} (same : run ++ rest = run' ++ rest')
    (all : ∀ c ∈ run, accept c = true) (stop : ∀ c, rest.head? = some c → accept c = false)
    (all' : ∀ c ∈ run', accept c = true) (stop' : ∀ c, rest'.head? = some c → accept c = false) :
    run = run' ∧ rest = rest' := by
  refine ⟨?_, ?_⟩
  · rw [← takeWhile_run all stop, same, takeWhile_run all' stop']
  · rw [← dropWhile_run all stop, same, dropWhile_run all' stop']

end Runs

theorem trimStart_run {gap rest : List Char} (blank : Blank gap) (solid : SolidFirst rest) :
    trimStart (gap ++ rest) = rest :=
  dropWhile_run blank solid

theorem exists_trimStart (text : List Char) :
    ∃ gap, Blank gap ∧ text = gap ++ trimStart text :=
  ⟨text.takeWhile isBlank, blank_takeWhile text, List.takeWhile_append_dropWhile.symm⟩

theorem readBlanks_run {gap rest : List Char} (filled : gap ≠ []) (blank : Blank gap)
    (solid : SolidFirst rest) : readBlanks (gap ++ rest) = some rest := by
  obtain ⟨c, gap, rfl⟩ := List.exists_cons_of_ne_nil filled
  have first : isBlank c = true := blank c List.mem_cons_self
  have others : Blank gap := fun d member => blank d (List.mem_cons_of_mem _ member)
  rw [List.cons_append, readBlanks, if_pos first, trimStart_run others solid]

theorem readBlanks_eq_some_iff {text rest : List Char} :
    readBlanks text = some rest ↔
      ∃ gap, gap ≠ [] ∧ Blank gap ∧ SolidFirst rest ∧ text = gap ++ rest := by
  constructor
  · intro read
    cases text with
    | nil => cases read
    | cons c text =>
      rw [readBlanks] at read
      split at read
      · rename_i first
        cases read
        obtain ⟨gap, blank, same⟩ := exists_trimStart text
        refine ⟨c :: gap, List.cons_ne_nil c gap, ?_, solidFirst_trimStart text, ?_⟩
        · exact (blank_singleton first).append blank
        · rw [List.cons_append, ← same]
      · cases read
  · rintro ⟨gap, filled, blank, solid, rfl⟩
    exact readBlanks_run filled blank solid

section Searches

variable {α : Type} {read : List Char → Option α} {text : List Char}

theorem searchFirst_eq_none_iff :
    searchFirst read text = none ↔ ∀ before after, text = before ++ after → read after = none := by
  induction text with
  | nil =>
    rw [searchFirst, Option.map_eq_none_iff]
    constructor
    · intro unread before after same
      obtain ⟨rfl, rfl⟩ := List.append_eq_nil_iff.mp same.symm
      exact unread
    · intro nowhere
      exact nowhere [] [] rfl
  | cons c text ih =>
    rw [searchFirst]
    constructor
    · intro searched before after same
      split at searched
      · cases searched
      · rename_i unread
        cases before with
        | nil =>
          obtain rfl : c :: text = after := same
          exact unread
        | cons d before =>
          exact ih.mp (Option.map_eq_none_iff.mp searched) before after (List.cons.inj same).2
    · intro nowhere
      have later := ih.mpr fun before after same => nowhere (c :: before) after (by rw [same]; rfl)
      rw [nowhere [] (c :: text) rfl, later]
      rfl

theorem searchFirst_here {found : α} (answered : read text = some found) :
    searchFirst read text = some (0, found) := by
  cases text with
  | nil => rw [searchFirst, answered]; rfl
  | cons c text => rw [searchFirst, answered]

theorem searchFirst_eq_some {start : Nat} {found : α}
    (searched : searchFirst read text = some (start, found)) :
    ∃ before after, text = before ++ after ∧ before.length = start ∧ read after = some found ∧
      ∀ front rest, text = front ++ rest → front.length < start → read rest = none := by
  induction text generalizing start with
  | nil =>
    obtain ⟨answer, answered, same⟩ := Option.map_eq_some_iff.mp searched
    cases same
    exact ⟨[], [], rfl, rfl, answered, fun _ _ _ earlier => absurd earlier (Nat.not_lt_zero _)⟩
  | cons c text ih =>
    rw [searchFirst] at searched
    split at searched
    · rename_i answer answered
      cases searched
      exact ⟨[], c :: text, rfl, rfl, answered,
        fun _ _ _ earlier => absurd earlier (Nat.not_lt_zero _)⟩
    · rename_i unread
      obtain ⟨⟨position, answer⟩, later, same⟩ := Option.map_eq_some_iff.mp searched
      cases same
      obtain ⟨before, after, rfl, rfl, answered, none_before⟩ := ih later
      refine ⟨c :: before, after, rfl, rfl, answered, ?_⟩
      intro front rest same earlier
      cases front with
      | nil =>
        obtain rfl : c :: (before ++ after) = rest := same
        exact unread
      | cons d front =>
        exact none_before front rest (List.cons.inj same).2 (Nat.lt_of_succ_lt_succ earlier)

/-- The reader answers after the run, and after no longer run of accepted
characters. -/
structure Longest (accept : Char → Bool) (read : List Char → Option α)
    (run rest : List Char) (found : α) : Prop where
  accepted : ∀ c ∈ run, accept c = true
  answered : read rest = some found
  last : ∀ more left, rest = more ++ left → more ≠ [] → (∀ c ∈ more, accept c = true) →
    read left = none

variable {accept : Char → Bool}

theorem longestRun_eq_none_iff :
    longestRun accept read text = none ↔
      ∀ run rest, text = run ++ rest → (∀ c ∈ run, accept c = true) → read rest = none := by
  induction text with
  | nil =>
    rw [longestRun, Option.map_eq_none_iff]
    constructor
    · intro unread run rest same _
      obtain ⟨rfl, rfl⟩ := List.append_eq_nil_iff.mp same.symm
      exact unread
    · intro nowhere
      exact nowhere [] [] rfl (List.forall_mem_nil _)
  | cons c text ih =>
    rw [longestRun]
    constructor
    · intro searched run rest same all
      split at searched
      · cases searched
      · rename_i later
        cases run with
        | nil =>
          obtain rfl : c :: text = rest := same
          exact Option.map_eq_none_iff.mp searched
        | cons d run =>
          obtain ⟨rfl, rfl⟩ := List.cons.inj same
          rw [if_pos (all c List.mem_cons_self)] at later
          exact ih.mp later run rest rfl fun e member => all e (List.mem_cons_of_mem _ member)
    · intro nowhere
      have later : (if accept c = true then longestRun accept read text else none) = none := by
        split
        · rename_i accepted
          apply ih.mpr
          intro run rest same all
          refine nowhere (c :: run) rest (by rw [same]; rfl) ?_
          intro d member
          rcases List.mem_cons.mp member with rfl | inside
          · exact accepted
          · exact all d inside
        · rfl
      rw [later, nowhere [] (c :: text) rfl (List.forall_mem_nil _)]
      rfl

theorem longestRun_eq_some {run : List Char} {found : α}
    (searched : longestRun accept read text = some (run, found)) :
    ∃ rest, text = run ++ rest ∧ Longest accept read run rest found := by
  induction text generalizing run with
  | nil =>
    obtain ⟨answer, answered, same⟩ := Option.map_eq_some_iff.mp searched
    cases same
    refine ⟨[], rfl, ⟨List.forall_mem_nil _, answered, ?_⟩⟩
    intro more left same filled
    exact absurd (List.append_eq_nil_iff.mp same.symm).1 filled
  | cons c text ih =>
    rw [longestRun] at searched
    split at searched
    · rename_i later
      cases searched
      split at later
      · rename_i accepted
        obtain ⟨rest, rfl, longest⟩ := ih later
        refine ⟨rest, rfl, ⟨?_, longest.answered, longest.last⟩⟩
        intro d member
        rcases List.mem_cons.mp member with rfl | inside
        · exact accepted
        · exact longest.accepted d inside
      · cases later
    · rename_i later
      obtain ⟨answer, answered, same⟩ := Option.map_eq_some_iff.mp searched
      cases same
      refine ⟨c :: text, rfl, ⟨List.forall_mem_nil _, answered, ?_⟩⟩
      intro more left same filled all
      obtain ⟨d, more, rfl⟩ := List.exists_cons_of_ne_nil filled
      obtain ⟨rfl, rfl⟩ := List.cons.inj same
      rw [if_pos (all c List.mem_cons_self)] at later
      exact longestRun_eq_none_iff.mp later more left rfl fun e member =>
        all e (List.mem_cons_of_mem _ member)

/-- No other run with an answer after it is longer. -/
theorem Longest.length_le {run rest : List Char} {found : α}
    (longest : Longest accept read run rest found) {run' rest' : List Char}
    (same : run ++ rest = run' ++ rest') (accepted : ∀ c ∈ run', accept c = true)
    (answered : read rest' ≠ none) : run'.length ≤ run.length := by
  by_contra longer
  obtain ⟨more, rfl⟩ : run <+: run' :=
    List.prefix_of_prefix_length_le (List.prefix_append run rest)
      (same ▸ List.prefix_append run' rest') (by omega)
  rw [List.append_assoc] at same
  refine answered (longest.last more rest' (List.append_cancel_left same) ?_ ?_)
  · rintro rfl
    simp at longer
  · exact fun c member => accepted c (List.mem_append_right _ member)

/-- The run is found again. -/
theorem Longest.longestRun_eq {run rest : List Char} {found : α}
    (longest : Longest accept read run rest found) :
    longestRun accept read (run ++ rest) = some (run, found) := by
  cases searched : longestRun accept read (run ++ rest) with
  | none =>
    have unread := longestRun_eq_none_iff.mp searched run rest rfl longest.accepted
    rw [longest.answered] at unread
    cases unread
  | some answer =>
    obtain ⟨run', found'⟩ := answer
    obtain ⟨rest', same, longest'⟩ := longestRun_eq_some searched
    have answered : read rest ≠ none := by simp [longest.answered]
    have answered' : read rest' ≠ none := by simp [longest'.answered]
    have shorter := longest.length_le same longest'.accepted answered'
    have longer := longest'.length_le same.symm longest.accepted answered
    obtain ⟨rfl, rfl⟩ := List.append_inj same (by omega)
    obtain rfl := Option.some.inj (longest.answered.symm.trans longest'.answered)
    rfl

end Searches

theorem occursIn_iff {part text : List Char} : occursIn part text = true ↔ part <:+: text := by
  rw [occursIn, anySuffix_iff]
  constructor
  · rintro ⟨before, after, rfl, begins⟩
    obtain ⟨rest, rfl⟩ := List.isPrefixOf_iff_prefix.mp begins
    exact ⟨before, rest, List.append_assoc before part rest⟩
  · rintro ⟨before, rest, same⟩
    rw [List.append_assoc] at same
    exact ⟨before, part ++ rest, same.symm, List.isPrefixOf_iff_prefix.mpr (List.prefix_append _ _)⟩

theorem readExact_eq_some_iff {word text rest : List Char} :
    readExact word text = some rest ↔ text = word ++ rest := by
  induction word generalizing text with
  | nil => exact Option.some_inj
  | cons p word ih =>
    cases text with
    | nil => simp [readExact, readBy]
    | cons c text =>
      rw [readExact, readBy, List.cons_append, List.cons.injEq, ← readExact]
      by_cases same : p = c
      · rw [if_pos (by simpa using same), ih]
        simp [same]
      · rw [if_neg (by simpa using same)]
        simp [Ne.symm same]

end SchemaLint.Text
