/-! Reading and searching text from left to right. A reader takes the text that
is left and answers what it found at its very start; the searches below decide
where a reader is tried, and in which order. -/
namespace SchemaLint.Text

/-- Reads a spelling character by character and gives the text after it. -/
def readBy (same : Char → Char → Bool) : List Char → List Char → Option (List Char)
  | [], text => some text
  | _ :: _, [] => none
  | p :: spelling, c :: text => if same p c then readBy same spelling text else none

def readExact (spelling text : List Char) : Option (List Char) := readBy (· == ·) spelling text

/-- Some end of the text satisfies the test. -/
def anySuffix (test : List Char → Bool) : List Char → Bool
  | [] => test []
  | c :: text => test (c :: text) || anySuffix test text

theorem anySuffix_iff {test : List Char → Bool} {text : List Char} :
    anySuffix test text = true ↔ ∃ before after, text = before ++ after ∧ test after = true := by
  induction text with
  | nil =>
    constructor
    · exact fun found => ⟨[], [], rfl, found⟩
    · rintro ⟨before, after, same, found⟩
      obtain ⟨rfl, rfl⟩ := List.append_eq_nil_iff.mp same.symm
      exact found
  | cons c text ih =>
    simp only [anySuffix, Bool.or_eq_true, ih]
    constructor
    · rintro (here | ⟨before, after, rfl, later⟩)
      · exact ⟨[], c :: text, rfl, here⟩
      · exact ⟨c :: before, after, rfl, later⟩
    · rintro ⟨before, after, same, found⟩
      cases before with
      | nil => exact Or.inl (by simpa [same] using found)
      | cons d before =>
        obtain ⟨rfl, rfl⟩ := List.cons.inj same
        exact Or.inr ⟨before, after, rfl, found⟩

/-- The answer of a reader at the first position where it has one, with that
position. -/
def searchFirst (read : List Char → Option α) : List Char → Option (Nat × α)
  | [] => (read []).map fun found => (0, found)
  | c :: text =>
    match read (c :: text) with
    | some found => some (0, found)
    | none => (searchFirst read text).map fun (start, found) => (start + 1, found)

/-- The longest run of accepted characters after which the reader has an
answer, with that answer. -/
def longestRun (accept : Char → Bool) (read : List Char → Option α) :
    List Char → Option (List Char × α)
  | [] => (read []).map fun found => ([], found)
  | c :: text =>
    match if accept c then longestRun accept read text else none with
    | some (run, found) => some (c :: run, found)
    | none => (read (c :: text)).map fun found => ([], found)

def occursIn (part text : List Char) : Bool := anySuffix part.isPrefixOf text

/-- The text with the first occurrence of `old`, if there is one, replaced. -/
def replaceFirst (old new : List Char) : List Char → List Char
  | [] => ((readExact old []).map (new ++ ·)).getD []
  | c :: text =>
    match readExact old (c :: text) with
    | some rest => new ++ rest
    | none => c :: replaceFirst old new text

/-- Non-overlapping replacement from left to right. Where `edit` answers
`(extra, new)`, the character there and the `extra` ones after it give way to
`new`; `skip` counts the characters that are still to give way. -/
def substituteFrom (edit : List Char → Option (Nat × List Char)) : Nat → List Char → List Char
  | _, [] => []
  | skip + 1, _ :: text => substituteFrom edit skip text
  | 0, c :: text =>
    match edit (c :: text) with
    | some (extra, new) => new ++ substituteFrom edit extra text
    | none => c :: substituteFrom edit 0 text

theorem substituteFrom_eq_drop (edit : List Char → Option (Nat × List Char)) (skip : Nat)
    (text : List Char) : substituteFrom edit skip text = substituteFrom edit 0 (text.drop skip) := by
  induction skip generalizing text with
  | zero => rfl
  | succ skip ih =>
    cases text with
    | nil => rfl
    | cons c text => exact ih text

def substitute (edit : List Char → Option (Nat × List Char)) (text : List Char) : List Char :=
  substituteFrom edit 0 text

/-- The text with every occurrence of a non-empty `old` replaced, from left to
right and without looking into what was put in. -/
def replaceAll (old new : List Char) (text : List Char) : List Char :=
  substitute (fun left => if old.isPrefixOf left then some (old.length - 1, new) else none) text

theorem replaceAll_singleton (old new : Char) (text : List Char) :
    replaceAll [old] [new] text = text.map fun c => if c = old then new else c := by
  unfold replaceAll substitute
  induction text with
  | nil => rfl
  | cons c text ih =>
    by_cases same : c = old
    · subst same
      simpa [substituteFrom, List.isPrefixOf] using ih
    · have other : ¬ old = c := fun h => same h.symm
      simpa [substituteFrom, List.isPrefixOf, same, other] using ih

end SchemaLint.Text
