import Mathlib.Data.List.FinRange
import SchemaLint.Proofs.ScriptContext

/-! The order of the statements does not matter. Joined with a blank on each side
of the terminator, no phrase reaches from one statement into the next, so a
script holds the phrases of its statements and no others. -/
namespace SchemaLint

open Text Phrase

/-- The statements as one script. -/
def Script.join (texts : List String) : String := " / ".intercalate texts

namespace Script

theorem toList_join_cons_cons (first second : String) (texts : List String) :
    (join (first :: second :: texts)).toList =
      first.toList ++ ' ' :: terminator :: ' ' :: (join (second :: texts)).toList := by
  rw [join, String.intercalate_cons_cons, String.toList_append, String.toList_append,
    List.append_assoc]
  rfl

theorem statements_join {texts : List String} (alone : ∀ text ∈ texts, Standalone text.toList) :
    statements (join texts) = texts := by
  induction texts with
  | nil => rfl
  | cons first texts ih =>
    have firstAlone := segments_standalone (alone first List.mem_cons_self)
    have rest := ih fun text member => alone text (List.mem_cons_of_mem _ member)
    cases texts with
    | nil =>
      rw [statements_eq, join, String.intercalate_singleton, firstAlone]
      simp
    | cons second texts =>
      rw [statements_eq] at rest ⊢
      have joint : segments (join (first :: second :: texts)).toList =
          first.toList :: segments (join (second :: texts)).toList := by
        rw [toList_join_cons_cons, List.append_cons, segments_append_terminator,
          segments_append_gap (Or.inl rfl), segments_gap_cons (Or.inl rfl), firstAlone]
        rfl
      rw [joint, List.map_cons, rest, String.ofList_toList]

theorem join_eq_empty_iff {texts : List String} (alone : ∀ text ∈ texts, Standalone text.toList) :
    join texts = "" ↔ texts = [] := by
  constructor
  · intro empty
    rw [← statements_join alone, empty]
    rfl
  · rintro rfl
    rfl

theorem closing_joint (rest : List Char) : Closing (' ' :: terminator :: rest) := by
  refine ⟨?_, ?_⟩
  · intro c head
    cases head
    exact Or.inl rfl
  · intro after read
    cases read
    intro c head
    cases head
    exact Or.inr rfl

/-- A phrase is found in the script exactly when it is found in a statement. -/
theorem occurs_join {words : List (List Char)} (solid : Solid words) (filled : words ≠ [])
    (texts : List String) :
    occurs words (Statement.ofString (join texts)).chars =
      texts.any fun text => occurs words (Statement.ofString text).chars := by
  induction texts with
  | nil =>
    have nothing := occurs_in_nil solid
    rw [List.isEmpty_eq_false_iff.mpr filled] at nothing
    exact nothing
  | cons first texts ih =>
    cases texts with
    | nil => simp [join]
    | cons second texts =>
      have line : (Statement.ofString (join (first :: second :: texts))).chars =
          (Statement.ofString first).chars ++
            ' ' :: terminator :: ' ' :: (Statement.ofString (join (second :: texts))).chars := by
        rw [Statement.chars_ofString, toList_join_cons_cons, onOneLine_append_cons rfl,
          onOneLine_cons rfl, onOneLine_cons rfl]
        rfl
      rw [line, occurs_append solid (closing_joint _), occurs_gap_cons solid (Or.inl rfl),
        occurs_gap_cons solid (Or.inr rfl), occurs_gap_cons solid (Or.inl rfl), ih]
      rfl

theorem samePhrases_join {texts others : List String} (permuted : texts.Perm others) :
    SamePhrases (.ofString (join texts)) (.ofString (join others)) := by
  intro words solid
  by_cases filled : words = []
  · subst filled
    rw [occurs_nil, occurs_nil]
  · rw [occurs_join solid filled, occurs_join solid filled, permuted.any_eq]

end Script

/-- The counts of a report do not depend on the order of its results. -/
theorem Report.counts_of_perm {first second : Report} (error : first.error? = second.error?)
    (permuted : first.results.Perm second.results) :
    first.total = second.total ∧ first.passed = second.passed ∧ first.failed = second.failed ∧
      (∀ severity, first.count severity = second.count severity) ∧
      first.hasErrors = second.hasErrors := by
  have total : first.total = second.total := permuted.length_eq
  have passed : first.passed = second.passed := permuted.countP_eq _
  have count : ∀ severity, first.count severity = second.count severity :=
    fun severity => (permuted.flatMap_right StatementResult.outcomes).countP_eq _
  refine ⟨total, passed, ?_, count, ?_⟩
  · rw [failed, failed, total, passed]
  · rw [hasErrors, hasErrors, error, count]

namespace Linter

theorem results_join (linter : Linter) {texts others : List String}
    (alone : ∀ text ∈ others, Script.Standalone text.toList) (permuted : others.Perm texts) :
    (linter.lint (Script.join others)).results = others.map fun text =>
      linter.evaluate (some (.ofString (Script.join texts))) (.ofString text) := by
  rw [results_lint, map_evaluate_congr (Script.samePhrases_join permuted),
    Script.statements_join alone]

theorem error?_join (linter : Linter) {texts others : List String}
    (alone : ∀ text ∈ texts, Script.Standalone text.toList) (permuted : others.Perm texts) :
    (linter.lint (Script.join others)).error? = (linter.lint (Script.join texts)).error? := by
  have othersAlone : ∀ text ∈ others, Script.Standalone text.toList :=
    fun text member => alone text (permuted.subset member)
  have same : Script.join others = "" ↔ Script.join texts = "" := by
    rw [Script.join_eq_empty_iff othersAlone, Script.join_eq_empty_iff alone]
    exact ⟨fun empty => (empty ▸ permuted).nil_eq.symm, fun empty => (empty ▸ permuted).eq_nil⟩
  simp only [error?_lint, same]

/-- Independence of order. -/
theorem lint_permuted (linter : Linter) {count : Nat} (texts : Fin count → String)
    (alone : ∀ i, Script.Standalone (texts i).toList) (order : Equiv.Perm (Fin count)) :
    (∃ judged : Fin count → StatementResult,
      (∀ i, (judged i).statement = .ofString (texts i)) ∧
      (linter.lint (Script.join (List.ofFn texts))).results = List.ofFn judged ∧
      (linter.lint (Script.join (List.ofFn (texts ∘ order)))).results =
        List.ofFn (judged ∘ order)) ∧
    (linter.lint (Script.join (List.ofFn (texts ∘ order)))).total =
      (linter.lint (Script.join (List.ofFn texts))).total ∧
    (linter.lint (Script.join (List.ofFn (texts ∘ order)))).passed =
      (linter.lint (Script.join (List.ofFn texts))).passed ∧
    (linter.lint (Script.join (List.ofFn (texts ∘ order)))).failed =
      (linter.lint (Script.join (List.ofFn texts))).failed ∧
    (∀ severity, (linter.lint (Script.join (List.ofFn (texts ∘ order)))).count severity =
      (linter.lint (Script.join (List.ofFn texts))).count severity) ∧
    (linter.lint (Script.join (List.ofFn (texts ∘ order)))).hasErrors =
      (linter.lint (Script.join (List.ofFn texts))).hasErrors := by
  let judge := fun text : String =>
    linter.evaluate (some (.ofString (Script.join (List.ofFn texts)))) (.ofString text)
  have permuted : (List.ofFn (texts ∘ order)).Perm (List.ofFn texts) := order.ofFn_comp_perm texts
  have allAlone : ∀ text ∈ List.ofFn texts, Script.Standalone text.toList :=
    List.forall_mem_ofFn_iff.mpr alone
  have movedAlone : ∀ text ∈ List.ofFn (texts ∘ order), Script.Standalone text.toList :=
    fun text member => allAlone text (permuted.subset member)
  have original : (linter.lint (Script.join (List.ofFn texts))).results =
      List.ofFn (judge ∘ texts) := by
    rw [results_join linter allAlone (List.Perm.refl _), List.map_ofFn]
  have moved : (linter.lint (Script.join (List.ofFn (texts ∘ order)))).results =
      List.ofFn ((judge ∘ texts) ∘ order) := by
    rw [results_join linter movedAlone permuted, List.map_ofFn]
    rfl
  refine ⟨⟨judge ∘ texts, fun _ => rfl, original, moved⟩, ?_⟩
  apply Report.counts_of_perm (error?_join linter allAlone permuted)
  rw [original, moved]
  exact order.ofFn_comp_perm _

theorem lint_permuted_swap :
    Script.Standalone "create table x".toList ∧ Script.Standalone "drop table x".toList ∧
    (standard.lint "drop table x / create table x").results =
      (standard.lint "create table x / drop table x").results.reverse ∧
    (standard.lint "drop table x / create table x").count .error =
      (standard.lint "create table x / drop table x").count .error := by
  have created : Script.Standalone "create table x".toList := by decide +kernel
  have dropped : Script.Standalone "drop table x".toList := by decide +kernel
  obtain ⟨⟨judged, -, original, moved⟩, -, -, -, count, -⟩ :=
    lint_permuted standard (fun i : Fin 2 => if i = 0 then "create table x" else "drop table x")
      (Fin.forall_fin_two.mpr ⟨created, dropped⟩) (Equiv.swap 0 1)
  refine ⟨created, dropped, ?_, count .error⟩
  exact moved.trans (congrArg List.reverse original).symm

end Linter
end SchemaLint
