import SchemaLint.Proofs.ConsoleLines

/-! Colours are only decoration. Whatever texts are shown, with control characters
and whole or unfinished escape sequences in them, the same is left of coloured and
of plain output when the sequences are dropped; and colours break no line. -/
namespace SchemaLint.Terminal.Console
open Text

/-- Sequences are dropped from the lines of an output one by one. -/
theorem stripEscapes_lines (lines : List (List Char)) :
    stripEscapes (lines.flatMap (· ++ ['\n'])) =
      (lines.map stripEscapes).flatMap (· ++ ['\n']) := by
  induction lines with
  | nil => rfl
  | cons line lines ih => simp [stripEscapes_append_newline, ih]

/-- What a stream that drops sequences shows is left of what one that keeps them
shows. -/
theorem stripEscapes_output (colored : Bool) (signals : List Signal) :
    stripEscapes (output ⟨colored, true⟩ signals).toList =
      (output ⟨colored, false⟩ signals).toList := by
  have dropped : stripEscapes ∘ shownLine ⟨colored, true⟩ = shownLine ⟨colored, false⟩ := rfl
  simp only [toList_output, stripEscapes_lines, List.map_map, dropped]

theorem output_uncolored (colored : Bool) (signals : List Signal) :
    output ⟨colored, false⟩ signals = output ⟨false, false⟩ signals := by
  have lines : shownLine ⟨colored, false⟩ = shownLine ⟨false, false⟩ := by
    funext event
    rw [shownLine_eq_plainLine (Or.inr rfl), shownLine_eq_plainLine (Or.inr rfl)]
  apply String.toList_injective
  simp only [toList_output, lines]

/-- Coloured and plain output are the same without escape sequences, whether these
are dropped line by line or from the whole. Each event is shown on one line. -/
theorem output_decorated (signals : List Signal) :
    output ⟨true, false⟩ signals = output ⟨false, false⟩ signals ∧
    (∀ colored kept, Stripped (output ⟨colored, true⟩ signals).toList kept ↔
      kept = (output ⟨false, false⟩ signals).toList) ∧
    ((∀ event, .event event ∈ signals → '\n' ∉ event.text.toList) → ∀ console : Console,
      pieces (· == '\n') (console.output signals).toList =
        (signals.filterMap Signal.event?).map console.shownLine ++ [[]]) := by
  refine ⟨output_uncolored true signals, ?_, pieces_output⟩
  intro colored kept
  rw [stripped_iff, stripEscapes_output, output_uncolored]
  exact eq_comm

/-- A message may end in an unfinished sequence: nothing that follows completes it. -/
theorem output_decorated_unfinished :
    (∀ event, .event event ∈ [Signal.event (.message .error "\x1B["), .clear,
        .event (.separator "1m")] → '\n' ∉ event.text.toList) ∧
    Stripped (output ⟨true, true⟩ [.event (.message .error "\x1B["), .clear,
      .event (.separator "1m")]).toList "[ERROR] \x1B[\n1m\n".toList ∧
    pieces (· == '\n') (output ⟨false, false⟩ [.event (.message .error "\x1B["), .clear,
      .event (.separator "1m")]).toList = ["[ERROR] \x1B[".toList, "1m".toList, []] := by
  obtain ⟨-, stripped, lines⟩ := output_decorated [.event (.message .error "\x1B["), .clear,
    .event (.separator "1m")]
  have unbroken : ∀ event, .event event ∈ [Signal.event (.message .error "\x1B["), .clear,
      .event (.separator "1m")] → '\n' ∉ event.text.toList := by
    simp [Event.text]
  exact ⟨unbroken, (stripped true _).mpr rfl, lines unbroken _⟩

end SchemaLint.Terminal.Console
