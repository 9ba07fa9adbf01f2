import Mathlib.Data.List.Infix
import SchemaLint.Proofs.ClauseParts
import SchemaLint.Proofs.Text.OneLine

/-! Where a clause can begin in a text of words. A keyword is read after blanks
only, and what it reads is a whole word; so a text is passed over word by word,
and whether a clause is defined in it is told from the words alone. -/
namespace SchemaLint.Clause
open Text

/-- The characters at which a word ends. -/
def IsStop (c : Char) : Prop := isBlank c = true ∨ c = '(' ∨ c = ')' ∨ c = ','

instance : DecidablePred IsStop := fun c =>
  inferInstanceAs (Decidable (isBlank c = true ∨ c = '(' ∨ c = ')' ∨ c = ','))

def StopFree (word : List Char) : Prop := ∀ c ∈ word, ¬ IsStop c

instance (word : List Char) : Decidable (StopFree word) :=
  decidable_of_iff (word.all (fun c => decide (¬ IsStop c)) = true) (by simp [StopFree])

/-- The text is empty or begins where a word ends. -/
def StopFirst (text : List Char) : Prop := ∀ c, text.head? = some c → IsStop c

theorem StopFree.solid {word : List Char} (free : StopFree word) : ∀ c ∈ word, isBlank c = false :=
  fun c member => Bool.eq_false_iff.mpr fun blank => free c member (Or.inl blank)

theorem StopFree.of_suffix {word before after : List Char} (free : StopFree word)
    (same : word = before ++ after) : StopFree after :=
  fun c member => free c (same ▸ List.mem_append_right before member)

theorem StopFree.trimmed {word : List Char} (free : StopFree word) : Trimmed word :=
  ⟨fun c head => free.solid c (List.mem_of_mem_head? head),
    fun c last => free.solid c (List.mem_of_mem_getLast? last)⟩

theorem StopFree.solidFirst {word : List Char} (free : StopFree word) (filled : word ≠ [])
    (rest : List Char) : SolidFirst (word ++ rest) := by
  obtain ⟨c, word, rfl⟩ := List.exists_cons_of_ne_nil filled
  exact solidFirst_cons (free.solid c List.mem_cons_self) _

theorem stopFirst_nil : StopFirst [] := by
  intro c head
  cases head

theorem stopFirst_cons {c : Char} (stop : IsStop c) (text : List Char) : StopFirst (c :: text) := by
  intro d head
  exact Option.some.inj head ▸ stop

theorem stopFirst_gap {gap rest : List Char} (blank : Blank gap) (first : StopFirst rest) :
    StopFirst (gap ++ rest) := by
  cases gap with
  | nil => exact first
  | cons c gap => exact stopFirst_cons (Or.inl (blank c List.mem_cons_self)) _

theorem stopFirst_filled {gap : List Char} (filled : gap ≠ []) (blank : Blank gap)
    (rest : List Char) : StopFirst (gap ++ rest) := by
  obtain ⟨c, gap, rfl⟩ := List.exists_cons_of_ne_nil filled
  exact stopFirst_cons (Or.inl (blank c List.mem_cons_self)) _

theorem uncased_marks : Uncased ('('.toNat, ','.toNat) := by decide +kernel

/-- No letter of a word stands for a character that ends words. -/
theorem not_sameLetter_of_stop {p c : Char} (plain : ¬ IsStop p) (stop : IsStop c) :
    sameLetter p c = false := by
  rw [Bool.eq_false_iff]
  intro same
  apply plain
  have marked : Within ('('.toNat, ','.toNat) c → IsStop p := fun within =>
    eq_of_sameLetter uncased_marks within same ▸ stop
  rcases stop with blank | rfl | rfl | rfl
  · exact eq_of_sameLetter_blank blank same ▸ Or.inl blank
  · exact marked ⟨by decide, by decide⟩
  · exact marked ⟨by decide, by decide⟩
  · exact marked ⟨by decide, by decide⟩

section Words

variable {head tail word next : List Char}

theorem readCaseless_stop {p c : Char} (plain : ¬ IsStop p) (stop : IsStop c) :
    readCaseless (p :: word) (c :: next) = none :=
  if_neg (Bool.eq_false_iff.mp (not_sameLetter_of_stop plain stop))

theorem readCaseless_stopFirst (plain : StopFree head) (stop : StopFirst next) :
    readCaseless head (word ++ next) = (readCaseless head word).map (· ++ next) :=
  readCaseless_append_apart
    (fun p member c first => not_sameLetter_of_stop (plain p member) (stop c first)) word

/-- A keyword is read through the end of a word only by its later words. -/
theorem readCaseless_word (plain : StopFree head) (stop : StopFirst next) :
    readCaseless (head ++ tail) (word ++ next) =
      (readCaseless head word).bind fun left => readCaseless tail (left ++ next) := by
  rw [readCaseless_append, readCaseless_stopFirst plain stop, Option.bind_map]
  rfl

/-- Where a blank follows in the keyword, its first word is the whole word. -/
theorem spells_of_readCaseless_space {rest : List Char} (plain : StopFree head)
    (free : StopFree word) (stop : StopFirst next)
    (read : readCaseless (head ++ ' ' :: tail) (word ++ next) = some rest) :
    Spells head word ∧ readCaseless (' ' :: tail) next = some rest := by
  rw [readCaseless_word plain stop, Option.bind_eq_some_iff] at read
  obtain ⟨left, spelled, read⟩ := read
  obtain ⟨spelling, spells, rfl⟩ := readCaseless_eq_some_iff.mp spelled
  cases left with
  | nil => exact ⟨by simpa using spells, read⟩
  | cons c left =>
    rw [List.cons_append, readCaseless, readBy] at read
    split at read
    · rename_i same
      have inside : c ∈ spelling ++ c :: left := List.mem_append_right _ List.mem_cons_self
      have other : sameLetter c ' ' = true := sameLetter_iff.mpr (sameLetter_iff.mp same).symm
      rw [not_sameLetter_of_stop (free c inside) (Or.inl rfl)] at other
      cases other
    · cases read

/-- Where blanks are read by a single space, the word comes right after them. -/
theorem readCaseless_space {p : Char} {gap rest : List Char} (plain : ¬ IsStop p)
    (blank : Blank gap) (solid : SolidFirst rest) (unread : readCaseless (p :: word) rest = none) :
    readCaseless (' ' :: p :: word) (gap ++ rest) = none := by
  have skip : ∀ {c : Char} {text : List Char}, readCaseless (p :: word) text = none →
      readCaseless (' ' :: p :: word) (c :: text) = none := by
    intro c text unread
    rw [readCaseless, readBy]
    split
    · exact unread
    · rfl
  cases gap with
  | nil =>
    cases rest with
    | nil => rfl
    | cons c rest =>
      refine if_neg fun same => ?_
      have other : sameLetter c ' ' = true := sameLetter_iff.mpr (sameLetter_iff.mp same).symm
      obtain rfl := eq_of_sameLetter_blank rfl other
      cases solid ' ' rfl
  | cons b gap =>
    cases gap with
    | nil => exact skip unread
    | cons c gap =>
      have stop : IsStop c := Or.inl (blank c (List.mem_cons_of_mem _ List.mem_cons_self))
      exact skip (readCaseless_stop plain stop)

end Words

/-- The first word of the keyword. -/
def keywordHead : ConstraintKind → List Char
  | .check | .notNull => "CHECK".toList
  | .foreignKey => "FOREIGN".toList
  | .primaryKey => "PRIMARY".toList
  | .uniqueKey => "UNIQUE".toList

/-- The rest of the keyword. -/
def keywordTail : ConstraintKind → List Char
  | .check | .notNull | .uniqueKey => []
  | .foreignKey | .primaryKey => " KEY".toList

theorem keyword_eq_append (kind : ConstraintKind) :
    kind.keyword.toList = keywordHead kind ++ keywordTail kind := by
  cases kind <;> rfl

/-- What holds of the four words holds of every keyword's first one. -/
theorem forall_keywordHead (test : List Char → Prop) :
    (∀ kind, test (keywordHead kind)) ↔
      ∀ word ∈ ["CHECK", "FOREIGN", "PRIMARY", "UNIQUE"], test word.toList := by
  simp only [List.mem_cons, List.not_mem_nil, or_false, forall_eq_or_imp, forall_eq]
  constructor
  · intro all
    exact ⟨all .check, all .foreignKey, all .primaryKey, all .uniqueKey⟩
  · rintro ⟨check, foreign, primary, unique⟩ kind
    cases kind with
    | check | notNull => exact check
    | foreignKey => exact foreign
    | primaryKey => exact primary
    | uniqueKey => exact unique

theorem stopFree_keywordHead (kind : ConstraintKind) : StopFree (keywordHead kind) := by
  cases kind <;> decide

/-- The text begins with the keyword and a column in parentheses. -/
def Opens (kind : ConstraintKind) (text : List Char) : Prop :=
  ∃ (keyword gap : List Char) (inside : ColumnParts), Spells kind.keyword.toList keyword ∧
    Blank gap ∧ inside.Fits kind ∧ text = keyword ++ (gap ++ '(' :: inside.text)

section Opening

variable {kind : ConstraintKind} {word next : List Char}

/-- The first word of the keyword is the whole word that stands there. -/
theorem Opens.split (opens : Opens kind (word ++ next)) (free : StopFree word)
    (stop : StopFirst next) :
    Spells (keywordHead kind) word ∧
      ∃ gap rest, Blank gap ∧ readCaseless (keywordTail kind) next = some (gap ++ '(' :: rest) := by
  obtain ⟨keyword, gap, inside, spells, blank, -, same⟩ := opens
  have spelled : readCaseless (keywordHead kind ++ keywordTail kind) (word ++ next) =
      some (gap ++ '(' :: inside.text) := by
    rw [← keyword_eq_append, same, readCaseless_spells spells]
  by_cases simple : keywordTail kind = []
  · -- after a keyword of one word comes a stop, so that nothing of the word is left
    rw [readCaseless_word (stopFree_keywordHead kind) stop, Option.bind_eq_some_iff] at spelled
    obtain ⟨left, spelled, rest⟩ := spelled
    obtain ⟨spelling, spells, rfl⟩ := readCaseless_eq_some_iff.mp spelled
    rw [simple] at rest ⊢
    cases left with
    | nil => exact ⟨by simpa using spells, gap, inside.text, blank, rest⟩
    | cons c left =>
      have closing : StopFirst (gap ++ '(' :: inside.text) :=
        stopFirst_gap blank (stopFirst_cons (Or.inr (Or.inl rfl)) _)
      have stopped := closing c (by rw [← Option.some.inj rest]; rfl)
      exact absurd stopped (free c (List.mem_append_right _ List.mem_cons_self))
  · have spaced : keywordTail kind = ' ' :: "KEY".toList := by
      cases kind with
      | check | notNull | uniqueKey => exact absurd rfl simple
      | primaryKey | foreignKey => rfl
    rw [spaced] at spelled ⊢
    obtain ⟨whole, rest⟩ :=
      spells_of_readCaseless_space (stopFree_keywordHead kind) free stop spelled
    exact ⟨whole, gap, inside.text, blank, rest⟩

theorem not_opens_of_not_spells (other : ¬ Spells (keywordHead kind) word) (free : StopFree word)
    (stop : StopFirst next) : ¬ Opens kind (word ++ next) :=
  fun opens => other (opens.split free stop).1

/-- No keyword begins with a character that ends words. -/
theorem not_opens_stop {c : Char} (stop : IsStop c) : ¬ Opens kind (c :: next) := by
  intro opens
  have opens : Opens kind ([] ++ c :: next) := opens
  have empty := (opens.split (List.forall_mem_nil _) (stopFirst_cons stop next)).1.length_eq
  cases kind <;> cases empty

end Opening

/-- Nothing is read at any place of the text. -/
def Silent {α : Type} (read : List Char → Option α) (text : List Char) : Prop :=
  ∀ before after, text = before ++ after → read after = none

section Silence

variable {α : Type} {read : List Char → Option α}

theorem silent_nil (unread : read [] = none) : Silent read [] := by
  intro before after same
  obtain ⟨rfl, rfl⟩ := List.append_eq_nil_iff.mp same.symm
  exact unread

theorem silent_cons {c : Char} {text : List Char} (unread : read (c :: text) = none)
    (rest : Silent read text) : Silent read (c :: text) := by
  intro before after same
  cases before with
  | nil =>
    obtain rfl : c :: text = after := same
    exact unread
  | cons d before => exact rest before after (List.cons.inj same).2

theorem silent_append {front next : List Char}
    (unread : ∀ before after, front = before ++ after → after ≠ [] → read (after ++ next) = none)
    (rest : Silent read next) : Silent read (front ++ next) := by
  induction front with
  | nil => exact rest
  | cons c front ih =>
    refine silent_cons (unread [] (c :: front) rfl (List.cons_ne_nil _ _)) (ih ?_)
    intro before after same filled
    exact unread (c :: before) after (by rw [same]; rfl) filled

theorem Silent.of_append {front next : List Char} (quiet : Silent read (front ++ next)) :
    Silent read next := by
  rintro before after rfl
  exact quiet (front ++ before) after (List.append_assoc _ _ _).symm

end Silence

section Definitions

variable {kind : ConstraintKind}

theorem readDefinition_solid {c : Char} (solid : isBlank c = false) (text : List Char) :
    readDefinition kind (c :: text) = none := by
  rw [readDefinition, readBlanks, if_neg (by simp [solid])]
  rfl

theorem opens_of_readDefinition {gap rest : List Char} (blank : Blank gap) (solid : SolidFirst rest)
    (read : readDefinition kind (gap ++ rest) ≠ none) : Opens kind rest := by
  obtain ⟨column, read⟩ := Option.ne_none_iff_exists'.mp read
  obtain ⟨nameGap, keyword, keywordGap, inside, nameBlanks, spells, blankAfter, same, found⟩ :=
    readDefinition_eq_some read
  obtain ⟨parts, ⟨rfl, fits, -⟩, -⟩ := exists_chosen_of_readColumn found
  have first : SolidFirst (keyword ++ (keywordGap ++ '(' :: parts.text)) := by
    obtain ⟨p, rest, shape, solid⟩ := keyword_eq_cons kind
    exact (shape ▸ spells).solidFirst solid _
  obtain ⟨-, same⟩ := run_unique same blank solid nameBlanks.2 first
  exact ⟨keyword, keywordGap, parts, spells, blankAfter, fits, same⟩

theorem opens_iff {text : List Char} :
    Opens kind text ↔ trimStart text = text ∧ readDefinition kind (' ' :: text) ≠ none := by
  constructor
  · rintro ⟨keyword, gap, inside, spells, blank, fits, rfl⟩
    obtain ⟨p, rest, shape, solid⟩ := keyword_eq_cons kind
    refine ⟨trimStart_eq_self ((shape ▸ spells).solidFirst solid _), ?_⟩
    have space : [' '] ≠ [] ∧ Blank [' '] := ⟨List.cons_ne_nil _ _, blank_singleton rfl⟩
    have read := readDefinition_run space spells blank inside.text
    exact fun unread => fits.readColumn_ne_none (read.symm.trans unread)
  · rintro ⟨same, read⟩
    exact opens_of_readDefinition (blank_singleton rfl) (same ▸ solidFirst_trimStart text) read

instance (kind : ConstraintKind) (text : List Char) : Decidable (Opens kind text) :=
  decidable_of_iff _ opens_iff.symm

theorem silent_solid {word next : List Char} (solid : ∀ c ∈ word, isBlank c = false)
    (rest : Silent (readDefinition kind) next) : Silent (readDefinition kind) (word ++ next) := by
  refine silent_append ?_ rest
  rintro before after rfl filled
  obtain ⟨c, after, rfl⟩ := List.exists_cons_of_ne_nil filled
  exact readDefinition_solid (solid c (List.mem_append_right _ List.mem_cons_self)) _

/-- Blanks are passed over unless the keyword comes after them. -/
theorem silent_gap {gap rest : List Char} (blank : Blank gap) (solid : SolidFirst rest)
    (other : gap ≠ [] → ¬ Opens kind rest) (quiet : Silent (readDefinition kind) rest) :
    Silent (readDefinition kind) (gap ++ rest) := by
  refine silent_append ?_ quiet
  rintro before after rfl some_blank
  by_contra read
  refine other (by simp [some_blank]) (opens_of_readDefinition ?_ solid read)
  exact fun c member => blank c (List.mem_append_right _ member)

theorem silent_word {gap word next : List Char} (blank : Blank gap) (filled : word ≠ [])
    (free : StopFree word) (other : gap ≠ [] → ¬ Opens kind (word ++ next))
    (rest : Silent (readDefinition kind) next) :
    Silent (readDefinition kind) (gap ++ (word ++ next)) :=
  silent_gap blank (free.solidFirst filled next) other (silent_solid free.solid rest)

/-- A word that is the first one of no keyword. -/
structure Ordinary (word : List Char) : Prop where
  filled : word ≠ []
  free : StopFree word
  other : ∀ kind, ¬ Spells (keywordHead kind) word

theorem ordinary_iff {word : List Char} : Ordinary word ↔ word ≠ [] ∧ StopFree word ∧
    ∀ head ∈ ["CHECK", "FOREIGN", "PRIMARY", "UNIQUE"], ¬ Spells head.toList word := by
  rw [← forall_keywordHead fun head => ¬ Spells head word]
  exact ⟨fun ordinary => ⟨ordinary.filled, ordinary.free, ordinary.other⟩,
    fun ⟨filled, free, other⟩ => ⟨filled, free, other⟩⟩

instance (word : List Char) : Decidable (Ordinary word) := decidable_of_iff _ ordinary_iff.symm

theorem Ordinary.silent {gap word next : List Char} (ordinary : Ordinary word) (blank : Blank gap)
    (stop : StopFirst next) (rest : Silent (readDefinition kind) next) :
    Silent (readDefinition kind) (gap ++ (word ++ next)) :=
  silent_word blank ordinary.filled ordinary.free
    (fun _ => not_opens_of_not_spells (ordinary.other kind) ordinary.free stop) rest

theorem silent_mark {gap next : List Char} {mark : Char} (blank : Blank gap) (stop : IsStop mark)
    (solid : isBlank mark = false) (rest : Silent (readDefinition kind) next) :
    Silent (readDefinition kind) (gap ++ mark :: next) :=
  silent_gap blank (solidFirst_cons solid next) (fun _ => not_opens_stop stop)
    (silent_cons (readDefinition_solid solid _) rest)

end Definitions

/-- The word is not spelled anywhere in the text. -/
def Absent (word text : List Char) : Prop := ∀ spelled, Spells word spelled → ¬ spelled <:+: text

/-- No keyword begins anywhere in the text. -/
def KeywordFree (text : List Char) : Prop :=
  ∀ kind spelled, Spells (keywordHead kind) spelled → ¬ spelled <:+: text

section Free

variable {kind : ConstraintKind} {text : List Char}

theorem absent_iff_silent {word : List Char} : Absent word text ↔ Silent (readCaseless word) text := by
  constructor
  · rintro absent before after rfl
    by_contra read
    obtain ⟨rest, read⟩ := Option.ne_none_iff_exists'.mp read
    obtain ⟨spelled, spells, rfl⟩ := readCaseless_eq_some_iff.mp read
    exact absent spelled spells ⟨before, rest, List.append_assoc _ _ _⟩
  · rintro quiet spelled spells ⟨before, rest, same⟩
    have unread := quiet before (spelled ++ rest) (by rw [← same, List.append_assoc])
    cases unread.symm.trans (readCaseless_spells spells rest)

theorem absent_iff {word : List Char} : Absent word text ↔
    anySuffix (fun left => (readCaseless word left).isSome) text = false := by
  rw [absent_iff_silent, Bool.eq_false_iff, ne_eq, anySuffix_iff]
  constructor
  · rintro quiet ⟨before, after, same, read⟩
    rw [quiet before after same] at read
    cases read
  · intro unread before after same
    by_contra read
    exact unread ⟨before, after, same, Option.isSome_iff_ne_none.mpr read⟩

instance (word text : List Char) : Decidable (Absent word text) := decidable_of_iff _ absent_iff.symm

theorem keywordFree_iff : KeywordFree text ↔ ∀ head ∈ ["CHECK", "FOREIGN", "PRIMARY", "UNIQUE"],
    anySuffix (fun left => (readCaseless head.toList left).isSome) text = false := by
  simp only [← absent_iff]
  exact forall_keywordHead fun head => Absent head text

instance (text : List Char) : Decidable (KeywordFree text) := decidable_of_iff _ keywordFree_iff.symm

theorem solid_of_spells_head {spelled : List Char} (spells : Spells (keywordHead kind) spelled) :
    ∀ c ∈ spelled, isBlank c = false :=
  spells.solid (stopFree_keywordHead kind).solid

/-- A word is absent from two texts that do not meet within it. -/
theorem Absent.append {word next : List Char} (absent : Absent word text) (plain : StopFree word)
    (stop : StopFirst next) (later : Absent word next) : Absent word (text ++ next) := by
  rw [absent_iff_silent] at absent later ⊢
  refine silent_append ?_ later
  intro before after same _
  rw [readCaseless_stopFirst plain stop, absent before after same, Option.map_none]

theorem Absent.gap {word gap : List Char} (absent : Absent word text) (filled : word ≠ [])
    (plain : StopFree word) (blank : Blank gap) : Absent word (gap ++ text) := by
  rw [absent_iff_silent] at absent ⊢
  refine silent_append ?_ absent
  rintro before after rfl some_blank
  obtain ⟨p, word, rfl⟩ := List.exists_cons_of_ne_nil filled
  obtain ⟨b, after, rfl⟩ := List.exists_cons_of_ne_nil some_blank
  have stop : IsStop b := Or.inl (blank b (List.mem_append_right _ List.mem_cons_self))
  exact readCaseless_stop (plain p List.mem_cons_self) stop

theorem KeywordFree.gap {gap : List Char} (free : KeywordFree text) (blank : Blank gap) :
    KeywordFree (gap ++ text) := by
  intro kind
  have absent : Absent (keywordHead kind) text := free kind
  exact absent.gap (by cases kind <;> decide) (stopFree_keywordHead kind) blank

/-- A definition that begins in a text without keywords does not begin there at
all: its keyword comes later, and so do the blanks before it. -/
theorem KeywordFree.silent_append {next : List Char} (free : KeywordFree text)
    (stop : StopFirst next) (quiet : Silent (readDefinition kind) next) :
    Silent (readDefinition kind) (text ++ next) := by
  refine Clause.silent_append ?_ quiet
  rintro before after rfl -
  by_contra read
  obtain ⟨column, read⟩ := Option.ne_none_iff_exists'.mp read
  obtain ⟨gap, keyword, keywordGap, inside, blanks, spells, blank, same, found⟩ :=
    readDefinition_eq_some read
  have head : readCaseless (keywordHead kind) (keyword ++ (keywordGap ++ '(' :: inside)) ≠ none := by
    intro unread
    have whole := readCaseless_spells spells (keywordGap ++ '(' :: inside)
    rw [keyword_eq_append, readCaseless_append, unread] at whole
    cases whole
  rcases List.append_eq_append_iff.mp same with ⟨more, rfl, later⟩ | ⟨rest, rfl, later⟩
  · by_cases ends : more = []
    · -- the keyword would be the first word of what follows
      rw [ends, List.nil_append] at later
      rw [← later, ← List.nil_append next, readCaseless_stopFirst (stopFree_keywordHead kind) stop,
        ne_eq, Option.map_eq_none_iff] at head
      cases kind <;> exact head rfl
    · have others : Blank more := fun c member => blanks.2 c (List.mem_append_right _ member)
      have defined := quiet [] next rfl
      rw [later, readDefinition_run ⟨ends, others⟩ spells blank, found] at defined
      cases defined
  · rw [later, readCaseless_stopFirst (stopFree_keywordHead kind) stop, ne_eq,
      Option.map_eq_none_iff] at head
    obtain ⟨left, read⟩ := Option.ne_none_iff_exists'.mp head
    obtain ⟨spelled, spells, rfl⟩ := readCaseless_eq_some_iff.mp read
    exact free kind spelled spells ⟨before ++ gap, left, by simp⟩

theorem KeywordFree.silent (free : KeywordFree text) : Silent (readDefinition kind) text := by
  have nothing : Silent (readDefinition kind) [] := silent_nil rfl
  have quiet := free.silent_append stopFirst_nil nothing
  rwa [List.append_nil] at quiet

theorem KeywordFree.onOneLine (free : KeywordFree text) : KeywordFree (onOneLine text) :=
  fun kind spelled spells inside =>
    free kind spelled spells (infix_of_infix_onOneLine (solid_of_spells_head spells) inside)

end Free

section Additions

variable {kind : ConstraintKind}

theorem readName_of_silent {text : List Char} (quiet : Silent (readDefinition kind) text) :
    readName kind text = none := by
  by_contra read
  obtain ⟨⟨name, column⟩, read⟩ := Option.ne_none_iff_exists'.mp read
  obtain ⟨definition, rfl, -, defined, -⟩ := readName_eq_some read
  cases (quiet name definition rfl).symm.trans defined

theorem silent_readAddition {text : List Char} (quiet : Silent (readDefinition kind) text) :
    Silent (readAddition kind) text := by
  rintro before after rfl
  by_contra read
  obtain ⟨⟨name, column⟩, read⟩ := Option.ne_none_iff_exists'.mp read
  obtain ⟨add, gap, rest, -, -, rfl, named, -⟩ := readAddition_eq_some read
  have later : Silent (readDefinition kind) rest := quiet.of_append.of_append.of_append
  cases (readName_of_silent later).symm.trans named

theorem readAddition_unread {text : List Char}
    (unread : readCaseless "ADD CONSTRAINT".toList text = none) : readAddition kind text = none := by
  rw [readAddition, unread]
  rfl

theorem readAddition_stop {c : Char} (stop : IsStop c) (text : List Char) :
    readAddition kind (c :: text) = none :=
  readAddition_unread (readCaseless_stop (by decide) stop)

theorem silent_addition_stop {c : Char} {text : List Char} (stop : IsStop c)
    (quiet : Silent (readAddition kind) text) : Silent (readAddition kind) (c :: text) :=
  silent_cons (readAddition_stop stop text) quiet

theorem silent_addition_gap {gap rest : List Char} (blank : Blank gap)
    (quiet : Silent (readAddition kind) rest) : Silent (readAddition kind) (gap ++ rest) := by
  induction gap with
  | nil => exact quiet
  | cons b gap ih =>
    exact silent_addition_stop (Or.inl (blank b List.mem_cons_self))
      (ih fun c member => blank c (List.mem_cons_of_mem _ member))

/-- A word is passed over unless it ends with the first word of an addition and
the second one follows. -/
theorem silent_addition_word {word next : List Char} (free : StopFree word) (stop : StopFirst next)
    (other : ∀ before after, word = before ++ after → Spells "ADD".toList after →
      readCaseless " CONSTRAINT".toList next = none)
    (rest : Silent (readAddition kind) next) : Silent (readAddition kind) (word ++ next) := by
  refine silent_append ?_ rest
  intro before after same _
  have unread : readCaseless "ADD CONSTRAINT".toList (after ++ next) = none := by
    by_contra read
    obtain ⟨left, read⟩ := Option.ne_none_iff_exists'.mp read
    have read : readCaseless ("ADD".toList ++ ' ' :: "CONSTRAINT".toList) (after ++ next) =
      some left := read
    obtain ⟨whole, goesOn⟩ :=
      spells_of_readCaseless_space (by decide) (free.of_suffix same) stop read
    have stops := (other before after same whole).symm.trans goesOn
    cases stops
  exact readAddition_unread unread

/-- A word that does not end with the first word of an addition; only its last
three characters can be that. -/
def Unadding (word : List Char) : Prop :=
  StopFree word ∧ ¬ Spells "ADD".toList (word.drop (word.length - 3))

instance (word : List Char) : Decidable (Unadding word) :=
  inferInstanceAs (Decidable (StopFree word ∧ ¬ Spells "ADD".toList (word.drop (word.length - 3))))

theorem Unadding.silent {word next : List Char} (unadding : Unadding word) (stop : StopFirst next)
    (rest : Silent (readAddition kind) next) : Silent (readAddition kind) (word ++ next) := by
  obtain ⟨free, other⟩ := unadding
  refine silent_addition_word free stop ?_ rest
  intro before after same spells
  have three : after.length = 3 := spells.length_eq
  have start : word.length - 3 = before.length := by
    rw [same, List.length_append, three, Nat.add_sub_cancel]
  rw [start, same, List.drop_left] at other
  exact absurd spells other

/-- Nothing is added within a text that does not hold the words for it, unless it
ends with the first of them and goes on with the second. -/
theorem Absent.silent_addition {text next : List Char} (absent : Absent "ADD CONSTRAINT".toList text)
    (stop : StopFirst next) (other : readCaseless " CONSTRAINT".toList next = none)
    (rest : Silent (readAddition kind) next) : Silent (readAddition kind) (text ++ next) := by
  refine silent_append ?_ rest
  rintro before after rfl -
  apply readAddition_unread
  by_contra unread
  obtain ⟨left, read⟩ := Option.ne_none_iff_exists'.mp unread
  rcases readCaseless_across read with inside | ⟨first, second, shape, filled, -, later⟩
  · exact inside (absent_iff_silent.mp absent before after rfl)
  · -- of the words only the space between them can be read where the text ends
    have space : ∀ second ∈ "ADD CONSTRAINT".toList.tails,
        second = " CONSTRAINT".toList ∨ StopFree (second.take 1) := by decide
    have member : second ∈ "ADD CONSTRAINT".toList.tails :=
      (List.mem_tails _ _).mpr (shape ▸ List.suffix_append first second)
    rcases space second member with rfl | plain
    · cases other.symm.trans later
    · obtain ⟨p, word, rfl⟩ := List.exists_cons_of_ne_nil filled
      have plain : ¬ IsStop p := plain p List.mem_cons_self
      cases next with
      | nil => cases later
      | cons c next => cases (readCaseless_stop plain (stop c rfl)).symm.trans later

end Additions

section Search

variable {kind : ConstraintKind} {name nameGap keyword keywordGap inside column : List Char}

theorem find?_eq_none_of_silent {text : List Char} (silent : Silent (readAddition kind) text) :
    find? kind text = none := by
  cases searched : find? kind text with
  | none => rfl
  | some answer =>
    obtain ⟨parts, chosen, -⟩ := exists_chosen_of_find? searched
    refine absurd (silent (parts.before ++ (parts.alter ++ parts.table)) parts.addition ?_)
      chosen.fits.readAddition_ne_none
    simp [← chosen.text_eq, Parts.text]

/-- The name takes all blanks before the keyword but the last one. -/
theorem readName_declared (named : Named kind name) (gap : nameGap ≠ [] ∧ Blank nameGap)
    (spells : Spells kind.keyword.toList keyword) (blank : Blank keywordGap)
    (read : readColumn kind inside = some column)
    (quiet : Silent (readDefinition kind) (keyword ++ (keywordGap ++ '(' :: inside))) :
    readName kind (name ++ (nameGap ++ (keyword ++ (keywordGap ++ '(' :: inside)))) =
      some (name ++ nameGap.dropLast, column) := by
  obtain ⟨start, tail, startSpells, rfl⟩ := named
  obtain ⟨front, last, rfl⟩ := (List.eq_nil_or_concat nameGap).resolve_left gap.1
  rw [List.concat_eq_append] at gap ⊢
  have lastGap : [last] ≠ [] ∧ Blank [last] :=
    ⟨List.cons_ne_nil _ _, fun c member => gap.2 c (List.mem_append_right _ member)⟩
  have longest : Longest (fun _ => true) (readDefinition kind) (tail ++ front)
      ([last] ++ (keyword ++ (keywordGap ++ '(' :: inside))) column := by
    refine ⟨by simp, (readDefinition_run lastGap spells blank inside).trans read, ?_⟩
    intro more left same filled _
    obtain ⟨c, more, rfl⟩ := List.exists_cons_of_ne_nil filled
    exact quiet more left (List.cons.inj same).2
  have searched := longest.longestRun_eq
  rw [List.append_assoc] at searched
  have taken : ∀ rest, (start ++ rest).take kind.nameStart.length = start := by
    intro rest
    rw [← String.length_toList, ← startSpells.length_eq, List.take_left]
  rw [readName, List.append_assoc, readCaseless_spells startSpells, List.append_assoc front]
  simp only [Option.bind_eq_bind, Option.bind_some, searched, taken]
  simp

/-- The blanks before a name that begins with something else are not divided. -/
theorem readAddition_run {add gap rest : List Char} (spells : Spells "ADD CONSTRAINT".toList add)
    (blanks : gap ≠ [] ∧ Blank gap) (solid : SolidFirst rest)
    {found : List Char × List Char} (read : readName kind rest = some found) :
    readAddition kind (add ++ (gap ++ rest)) = some found := by
  obtain ⟨c, gap, rfl⟩ := List.exists_cons_of_ne_nil blanks.1
  have first := blanks.2 c List.mem_cons_self
  have longest : Longest isBlank (readName kind) gap rest found := by
    refine ⟨fun d member => blanks.2 d (List.mem_cons_of_mem _ member), read, ?_⟩
    rintro more left rfl some_more blank
    obtain ⟨d, more, rfl⟩ := List.exists_cons_of_ne_nil some_more
    have solid := solid d rfl
    rw [blank d List.mem_cons_self] at solid
    cases solid
  rw [readAddition, readCaseless_spells spells]
  simp [first, longest.longestRun_eq]

end Search
end SchemaLint.Clause
