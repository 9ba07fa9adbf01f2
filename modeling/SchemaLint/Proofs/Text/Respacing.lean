import Mathlib.Data.List.Forall2
import Mathlib.Data.Option.Basic
import SchemaLint.Proofs.Text.OneLine
import SchemaLint.Proofs.Text.Reading

/-! Texts that differ in their layout. Each maximal run of blanks of one text
stands for a run of the other, and each other character for one that is the same
up to a given relation. What a reader finds that does not look at the length of
a gap is found in both, and what it passes over differs in its layout only. -/
namespace SchemaLint.Text

/-- The second text is the first one laid out anew, both after a text `before`.
Where `kept` holds of the text before a run of blanks and the text after it, the
run stays as it is. -/
inductive Respaced (same : Char → Char → Prop) (kept : List Char → List Char → Prop) :
    List Char → List Char → List Char → Prop where
  | done {before : List Char} : Respaced same kept before [] []
  | char {before left right : List Char} {c d : Char} (solid : isBlank c = false)
      (agrees : same c d) (rest : Respaced same kept (before ++ [c]) left right) :
      Respaced same kept before (c :: left) (d :: right)
  | gap {before run other left right : List Char} (blanks : run ≠ [] ∧ Blank run)
      (others : other ≠ [] ∧ Blank other) (solid : SolidFirst left)
      (unchanged : kept before left → run = other)
      (rest : Respaced same kept (before ++ run) left right) :
      Respaced same kept before (run ++ left) (other ++ right)

/-- No run of blanks has to stay as it is. -/
def Relaid (same : Char → Char → Prop) (left right : List Char) : Prop :=
  Respaced same (fun _ _ => False) [] left right

section Blanks

theorem not_solidFirst_blanks {run rest : List Char} (blanks : run ≠ [] ∧ Blank run) :
    ¬ SolidFirst (run ++ rest) := by
  obtain ⟨b, more, shape, blank⟩ := exists_blank_head blanks rest
  intro solid
  rw [shape] at solid
  exact Bool.false_ne_true ((solid b rfl).symm.trans blank)

theorem anySuffix_blanks {test : List Char → Bool}
    (deaf : ∀ b text, isBlank b = true → test (b :: text) = false) {run : List Char}
    (blank : Blank run) (rest : List Char) : anySuffix test (run ++ rest) = anySuffix test rest := by
  induction run with
  | nil => rfl
  | cons b run ih =>
    rw [List.cons_append, anySuffix, deaf b _ (blank b List.mem_cons_self), Bool.false_or,
      ih fun c member => blank c (List.mem_cons_of_mem _ member)]

variable {α : Type} {read : List Char → Option α}

theorem searchFirst_blanks (deaf : ∀ b text, isBlank b = true → read (b :: text) = none)
    {run : List Char} (blank : Blank run) (rest : List Char) :
    (searchFirst read (run ++ rest)).map Prod.snd = (searchFirst read rest).map Prod.snd := by
  induction run with
  | nil => rfl
  | cons b run ih =>
    rw [List.cons_append, searchFirst, deaf b _ (blank b List.mem_cons_self),
      ← ih fun c member => blank c (List.mem_cons_of_mem _ member), Option.map_map]
    rfl

theorem longestRun_blanks (deaf : ∀ b text, isBlank b = true → read (b :: text) = none)
    {run : List Char} (blank : Blank run) (rest : List Char) :
    longestRun (fun _ => true) read (run ++ rest) =
      (longestRun (fun _ => true) read rest).map fun (passed, found) => (run ++ passed, found) := by
  induction run with
  | nil => simp
  | cons b run ih =>
    rw [List.cons_append, longestRun, if_pos rfl, deaf b _ (blank b List.mem_cons_self),
      ih fun c member => blank c (List.mem_cons_of_mem _ member)]
    cases longestRun (fun _ => true) read rest <;> rfl

end Blanks

section Layout

variable {same : Char → Char → Prop} {kept : List Char → List Char → Prop}
  {before left right : List Char}

theorem Respaced.forget (respaced : Respaced same kept before left right) (place : List Char) :
    Respaced same (fun _ _ => False) place left right := by
  induction respaced generalizing place with
  | done => exact .done
  | char solid agrees _ ih => exact .char solid agrees (ih _)
  | gap blanks others solid _ _ ih => exact .gap blanks others solid False.elim (ih _)

theorem Respaced.relaid (respaced : Respaced same kept before left right) :
    Relaid same left right :=
  respaced.forget []

theorem Relaid.char {c d : Char} (solid : isBlank c = false) (agrees : same c d)
    (relaid : Relaid same left right) : Relaid same (c :: left) (d :: right) :=
  Respaced.char solid agrees (Respaced.forget relaid _)

/-- Blanks in front join those that are there. -/
theorem Relaid.pad {run other : List Char} (blanks : run ≠ [] ∧ Blank run)
    (others : other ≠ [] ∧ Blank other) (relaid : Relaid same left right) :
    Relaid same (run ++ left) (other ++ right) := by
  cases relaid with
  | done => exact .gap blanks others (fun _ head => by cases head) False.elim .done
  | char solid agrees rest =>
    exact .gap blanks others (solidFirst_cons solid _) False.elim
      (.char solid agrees (rest.forget _))
  | @gap _ inner innerOther left right innerBlanks innerOthers solid _ rest =>
    rw [← List.append_assoc, ← List.append_assoc]
    have joined : run ++ inner ≠ [] ∧ Blank (run ++ inner) :=
      ⟨by simp [blanks.1], blanks.2.append innerBlanks.2⟩
    have otherJoined : other ++ innerOther ≠ [] ∧ Blank (other ++ innerOther) :=
      ⟨by simp [others.1], others.2.append innerOthers.2⟩
    exact .gap joined otherJoined solid False.elim (rest.forget _)

theorem Relaid.append {next otherNext : List Char} (relaid : Relaid same left right)
    (rest : Relaid same next otherNext) : Relaid same (left ++ next) (right ++ otherNext) := by
  suffices whole : ∀ {before left right}, Respaced same (fun _ _ => False) before left right →
      Relaid same (left ++ next) (right ++ otherNext) from whole relaid
  intro before left right respaced
  induction respaced with
  | done => exact rest
  | char solid agrees _ ih => exact ih.char solid agrees
  | gap blanks others _ _ _ ih =>
    rw [List.append_assoc, List.append_assoc]
    exact ih.pad blanks others

theorem Relaid.word {word other : List Char} (alike : List.Forall₂ same word other)
    (solid : ∀ c ∈ word, isBlank c = false) (rest : Relaid same left right) :
    Relaid same (word ++ left) (other ++ right) := by
  induction alike with
  | nil => exact rest
  | @cons c _ word _ first _ ih =>
    have later := ih fun d member => solid d (List.mem_cons_of_mem _ member)
    exact later.char (solid c List.mem_cons_self) first

theorem relaid_refl (text : List Char) : Relaid (· = ·) text text := by
  induction text with
  | nil => exact .done
  | cons c text ih =>
    by_cases blank : isBlank c = true
    · have single : [c] ≠ [] ∧ Blank [c] := ⟨List.cons_ne_nil _ _, blank_singleton blank⟩
      exact ih.pad single single
    · exact ih.char (by simpa using blank) rfl

end Layout

theorem isBlank_eq_of_sameLetter {c d : Char} (agrees : sameLetter c d = true) :
    isBlank c = isBlank d := by
  have flipped : sameLetter d c = true := sameLetter_iff.mpr (sameLetter_iff.mp agrees).symm
  cases solid : isBlank c with
  | false => exact (solid_of_sameLetter agrees solid).symm
  | true =>
    by_contra other
    rw [solid_of_sameLetter flipped (Bool.eq_false_iff.mpr (Ne.symm other))] at solid
    cases solid

section Readers

variable {same : Char → Char → Prop} {kept : List Char → List Char → Prop}
  {before left right : List Char} (letters : ∀ {c d : Char}, same c d → sameLetter c d = true)
include letters

theorem Respaced.solidFirst (respaced : Respaced same kept before left right)
    (solid : SolidFirst left) : SolidFirst right := by
  cases respaced with
  | done => exact solid
  | char first agrees _ => exact solidFirst_cons (solid_of_sameLetter (letters agrees) first) _
  | gap blanks => exact absurd solid (not_solidFirst_blanks blanks)

/-- Line breaks among the new blanks do not matter. -/
theorem Relaid.onOneLine (relaid : Relaid same left right) : Relaid same left (onOneLine right) := by
  suffices whole : ∀ {before left right}, Respaced same (fun _ _ => False) before left right →
      Relaid same left (Text.onOneLine right) from whole relaid
  intro before left right respaced
  induction respaced with
  | done => exact .done
  | char solid agrees _ ih =>
    have plain := not_isLineBreak_of_not_isBlank (solid_of_sameLetter (letters agrees) solid)
    rw [onOneLine_cons plain]
    exact ih.char solid agrees
  | @gap _ run other left right blanks others solid _ rest ih =>
    have apart : ¬ BreakAcross other right := by
      rintro ⟨-, feed⟩
      cases rest.solidFirst letters solid _ feed
    rw [onOneLine_append apart]
    exact ih.pad blanks ⟨fun empty => others.1 (onOneLine_eq_nil_iff.mp empty), others.2.onOneLine⟩

theorem Respaced.trimStart (respaced : Respaced same kept before left right) :
    ∃ place, Respaced same kept place (trimStart left) (trimStart right) := by
  cases respaced with
  | done => exact ⟨[], .done⟩
  | char solid agrees rest =>
    have first := solid_of_sameLetter (letters agrees) solid
    rw [trimStart_eq_self (solidFirst_cons solid _), trimStart_eq_self (solidFirst_cons first _)]
    exact ⟨before, .char solid agrees rest⟩
  | gap blanks others solid _ rest =>
    rw [trimStart_run blanks.2 solid, trimStart_run others.2 (rest.solidFirst letters solid)]
    exact ⟨_, rest⟩

theorem Respaced.readBlanks (respaced : Respaced same kept before left right) :
    Option.Rel (fun rest other => ∃ place, Respaced same kept place rest other)
      (readBlanks left) (readBlanks right) := by
  cases respaced with
  | done => exact .none
  | char solid agrees rest =>
    have first := solid_of_sameLetter (letters agrees) solid
    rw [Text.readBlanks, Text.readBlanks, if_neg (by simp [solid]), if_neg (by simp [first])]
    exact .none
  | gap blanks others solid _ rest =>
    rw [readBlanks_run blanks.1 blanks.2 solid,
      readBlanks_run others.1 others.2 (rest.solidFirst letters solid)]
    exact .some ⟨_, rest⟩

/-- A word is read in both texts or in neither, and at the same place. -/
theorem Respaced.readCaseless {word : List Char} (solid : ∀ p ∈ word, isBlank p = false)
    (respaced : Respaced same kept before left right) :
    readCaseless word left = none ∧ readCaseless word right = none ∨
      ∃ spelled other rest otherRest, Spells word spelled ∧ left = spelled ++ rest ∧
        Spells word other ∧ right = other ++ otherRest ∧ List.Forall₂ same spelled other ∧
        Respaced same kept (before ++ spelled) rest otherRest := by
  induction word generalizing before left right with
  | nil =>
    rw [← List.append_nil before] at respaced
    exact Or.inr ⟨[], [], left, right, .nil, rfl, .nil, rfl, .nil, respaced⟩
  | cons p word ih =>
    have first := solid p List.mem_cons_self
    have others := fun q member => solid q (List.mem_cons_of_mem _ member)
    cases respaced with
    | done => exact Or.inl ⟨rfl, rfl⟩
    | @char _ left right c d firstSolid agrees rest =>
      have letter : sameLetter p c = sameLetter p d := by
        rw [Bool.eq_iff_iff, sameLetter_iff, sameLetter_iff, sameLetter_iff.mp (letters agrees)]
      by_cases here : sameLetter p c = true
      · rcases ih others rest with ⟨unread, otherUnread⟩ | ⟨spelled, other, next, otherNext, spells,
          rfl, otherSpells, rfl, alike, later⟩
        · refine Or.inl ⟨?_, ?_⟩
          · rw [Text.readCaseless, readBy, if_pos here]
            exact unread
          · rw [Text.readCaseless, readBy, if_pos (letter ▸ here)]
            exact otherUnread
        · rw [List.append_assoc, List.singleton_append] at later
          exact Or.inr ⟨c :: spelled, d :: other, next, otherNext, .cons here spells, rfl,
            .cons (letter ▸ here) otherSpells, rfl, .cons agrees alike, later⟩
      · exact Or.inl ⟨if_neg here, if_neg (letter ▸ here)⟩
    | @gap _ run other left right blanks otherBlanks _ _ _ =>
      have unread : ∀ {run : List Char} (rest : List Char), run ≠ [] ∧ Blank run →
          Text.readCaseless (p :: word) (run ++ rest) = none := by
        intro run rest blanks
        obtain ⟨b, more, shape, blank⟩ := exists_blank_head blanks rest
        rw [shape]
        refine if_neg fun agrees => ?_
        rw [eq_of_sameLetter_blank blank agrees, blank] at first
        cases first
      exact Or.inl ⟨unread left blanks, unread right otherBlanks⟩

end Readers

section Searches

variable {same : Char → Char → Prop} {kept : List Char → List Char → Prop}
  {before left right : List Char}

/-- The texts agree as far as they have accepted characters, if no blank is one. -/
theorem Respaced.takeWhile {accept : Char → Bool} (noBlank : ∀ b, isBlank b = true → accept b = false)
    (agrees : ∀ {c d}, same c d → accept c = accept d)
    (respaced : Respaced same kept before left right) :
    List.Forall₂ same (left.takeWhile accept) (right.takeWhile accept) ∧
      ∃ place, Respaced same kept place (left.dropWhile accept) (right.dropWhile accept) := by
  induction respaced with
  | done => exact ⟨.nil, [], .done⟩
  | @char before left right c d solid alike rest ih =>
    cases accepted : accept c with
    | true =>
      have other : accept d = true := agrees alike ▸ accepted
      simp only [List.takeWhile_cons_of_pos, List.dropWhile_cons_of_pos, accepted, other]
      exact ⟨.cons alike ih.1, ih.2⟩
    | false =>
      have other : accept d = false := agrees alike ▸ accepted
      simp only [List.takeWhile_cons, List.dropWhile_cons, accepted, other, Bool.false_eq_true,
        if_false]
      exact ⟨.nil, before, .char solid alike rest⟩
  | @gap before run other left right blanks others solid unchanged rest _ =>
    obtain ⟨b, more, shape, blank⟩ := exists_blank_head blanks left
    obtain ⟨b', more', shape', blank'⟩ := exists_blank_head others right
    have gap := Respaced.gap blanks others solid unchanged rest
    rw [shape, shape'] at gap ⊢
    simp only [List.takeWhile_cons, List.dropWhile_cons, noBlank b blank, noBlank b' blank',
      Bool.false_eq_true, if_false]
    exact ⟨.nil, before, gap⟩

theorem Respaced.any {test : Char → Bool} (noBlank : ∀ b, isBlank b = true → test b = false)
    (agrees : ∀ {c d}, same c d → test c = test d)
    (respaced : Respaced same kept before left right) : left.any test = right.any test := by
  have blanksFail : ∀ {run : List Char}, Blank run → run.any test = false := by
    intro run blank
    rw [List.any_eq_false]
    intro b member
    simp [noBlank b (blank b member)]
  induction respaced with
  | done => rfl
  | char _ alike _ ih => rw [List.any_cons, List.any_cons, agrees alike, ih]
  | gap blanks others _ _ _ ih =>
    rw [List.any_append, List.any_append, blanksFail blanks.2, blanksFail others.2, ih]

theorem Respaced.anySuffix {test : List Char → Bool}
    (deaf : ∀ b text, isBlank b = true → test (b :: text) = false)
    (agrees : ∀ {before left right}, Respaced same kept before left right → test left = test right)
    (respaced : Respaced same kept before left right) : anySuffix test left = anySuffix test right := by
  induction respaced with
  | done => rfl
  | char solid alike rest ih =>
    rw [Text.anySuffix, Text.anySuffix, agrees (.char solid alike rest), ih]
  | gap blanks others _ _ _ ih =>
    rw [anySuffix_blanks deaf blanks.2, anySuffix_blanks deaf others.2, ih]

variable {α : Type} {rel : α → α → Prop} {read : List Char → Option α}

theorem Respaced.searchFirst (deaf : ∀ b text, isBlank b = true → read (b :: text) = none)
    (agrees : ∀ {before left right}, Respaced same kept before left right →
      Option.Rel rel (read left) (read right))
    (respaced : Respaced same kept before left right) :
    Option.Rel rel ((searchFirst read left).map Prod.snd) ((searchFirst read right).map Prod.snd) := by
  induction respaced with
  | @done before =>
    have here := agrees (show Respaced same kept before [] [] from .done)
    rwa [Text.searchFirst, Option.map_map, Function.comp_def, Option.map_id']
  | @char before left right c d solid alike rest ih =>
    have here := agrees (.char solid alike rest)
    rw [Text.searchFirst, Text.searchFirst]
    generalize read (c :: left) = found, read (d :: right) = otherFound at here ⊢
    cases here with
    | none => simpa only [Option.map_map, Function.comp_def] using ih
    | some answers => exact .some answers
  | gap blanks others _ _ _ ih =>
    rwa [searchFirst_blanks deaf blanks.2, searchFirst_blanks deaf others.2]

/-- The longest runs with an answer after them differ in their layout only. -/
theorem Respaced.longestRun (deaf : ∀ b text, isBlank b = true → read (b :: text) = none)
    (agrees : ∀ {before left right}, Respaced same kept before left right →
      Option.Rel rel (read left) (read right))
    (respaced : Respaced same kept before left right) :
    Option.Rel (fun found other => Relaid same found.1 other.1 ∧ rel found.2 other.2)
      (longestRun (fun _ => true) read left) (longestRun (fun _ => true) read right) := by
  induction respaced with
  | @done before =>
    have here := agrees (show Respaced same kept before [] [] from .done)
    rw [Text.longestRun]
    generalize read [] = found at here ⊢
    cases here with
    | none => exact .none
    | some answers => exact .some ⟨.done, answers⟩
  | @char before left right c d solid alike rest ih =>
    have here := agrees (.char solid alike rest)
    rw [Text.longestRun, Text.longestRun, if_pos rfl, if_pos rfl]
    generalize Text.longestRun (fun _ => true) read left = later,
      Text.longestRun (fun _ => true) read right = otherLater at ih ⊢
    cases ih with
    | some answers => exact .some ⟨answers.1.char solid alike, answers.2⟩
    | none =>
      generalize read (c :: left) = found, read (d :: right) = otherFound at here ⊢
      cases here with
      | none => exact .none
      | some answers => exact .some ⟨.done, answers⟩
  | @gap before run other left right blanks others _ _ _ ih =>
    rw [longestRun_blanks deaf blanks.2, longestRun_blanks deaf others.2]
    generalize Text.longestRun (fun _ => true) read left = found,
      Text.longestRun (fun _ => true) read right = otherFound at ih ⊢
    cases ih with
    | none => exact .none
    | some answers => exact .some ⟨answers.1.pad blanks others, answers.2⟩

end Searches
end SchemaLint.Text
