import Mathlib.Data.List.DropRight
import Mathlib.Data.List.Induction
import SchemaLint.Proofs.EventBlocks
import SchemaLint.Proofs.OpenedLinters

/-! Sessions do not remember more than they should. After any history, the linter
and the bench of a session are described by the last step that opened one and the
settings that were made for them since, the registry by the steps that registered
a rule, and the linter for scripts without a configuration is always the same. -/
namespace SchemaLint

theorem Level.ofName?_eq_none_iff {text : String} :
    ofName? text = none ↔ text ∉ ["success", "info", "error"] := by
  unfold ofName?
  split <;> simp_all

namespace Session

/-- The start of a session. There may be a linter for scripts without a configuration
from before it. -/
def start (used : Bool) : Session :=
  { defaultLinter := if used then some .standard else none }

/-- The answer to a step. -/
def answer (session : Session) (step : Step) : Answer :=
  match session.step step with
  | .ok (answer, _) => answer
  | .error refusal => .refused refusal

/-- The session after a step. -/
def next (session : Session) (step : Step) : Session :=
  match session.step step with
  | .ok (_, after) => after
  | .error _ => session

/-- The session after a history of steps. -/
def after (session : Session) (history : List Step) : Session := history.foldl next session

theorem run_cons (session : Session) (step : Step) (rest : List Step) :
    session.run (step :: rest) = session.answer step :: (session.next step).run rest := by
  rw [run, answer, next]
  cases session.step step <;> rfl

theorem run_append (session : Session) (history later : List Step) :
    session.run (history ++ later) = session.run history ++ (session.after history).run later := by
  induction history generalizing session with
  | nil => rfl
  | cons step history ih => rw [List.cons_append, run_cons, run_cons, ih, List.cons_append]; rfl

theorem length_run (session : Session) (history : List Step) :
    (session.run history).length = history.length := by
  induction history generalizing session with
  | nil => rfl
  | cons step history ih => rw [run_cons, List.length_cons, List.length_cons, ih]

theorem after_concat (session : Session) (history : List Step) (step : Step) :
    session.after (history ++ [step]) = (session.after history).next step := by
  rw [after, List.foldl_append]
  rfl

/-! ### What a history describes -/

/-- What a step does to the linter and the bench. -/
inductive Change where
  | openedLinter (opening : Opening)
  | openedBench (opening : Opening)
  | configured (settings : List Setting)

namespace Change

def linter? : Change → Option Opening
  | .openedLinter opening => some opening
  | .openedBench _ | .configured _ => none

/-- A new linter is its own bench. -/
def bench? : Change → Option Opening
  | .openedLinter opening | .openedBench opening => some opening
  | .configured _ => none

def opensOwnBench : Change → Bool
  | .openedBench _ => true
  | .openedLinter _ | .configured _ => false

def settings : Change → List Setting
  | .configured settings => settings
  | .openedLinter _ | .openedBench _ => []

end Change

namespace Step

/-- The rule that a step is to register. -/
def rule? : Step → Option Rule
  | .register rule => some rule
  | _ => none

/-- The change that a step makes when there are these rules in the registry. A step
that cannot open what it should makes none. -/
def change? (rules : List Rule) : Step → Option Change
  | .openLinter config drafts =>
    let opening : Opening := ⟨drafts, config, Registry.standard.rules⟩
    if opening.Sound then some (.openedLinter opening) else none
  | .openBench config drafts ownRegistry =>
    let opening : Opening :=
      ⟨drafts, config, if ownRegistry then rules else Registry.standard.rules⟩
    if opening.Sound then some (.openedBench opening) else none
  | .configure settings => some (.configured settings)
  | _ => none

/-- The step is refused when there are these rules in the registry. -/
def Refused (rules : List Rule) : Step → Prop
  | .openLinter config drafts => ¬ Opening.Sound ⟨drafts, config, Registry.standard.rules⟩
  | .openBench config drafts ownRegistry =>
    ¬ Opening.Sound ⟨drafts, config, if ownRegistry then rules else Registry.standard.rules⟩
  | .lint (some config) _ =>
    ∃ ruleId, config.selection.Names ruleId ∧ ruleId ∉ Catalog.standard.map (·.ruleId)
  | .emit level _ => level ∉ ["success", "info", "error"]
  | .register rule => ∃ other ∈ rules, other.id = rule.id
  | _ => False

/-- The step answers with the rules of the bench. -/
def showsRules : Step → Bool
  | .openLinter _ _ | .openBench _ _ _ | .showRules | .configure _ => true
  | _ => false

end Step

/-- The rules that a history registers: of those with one id the first. -/
def registered (history : List Step) : List Rule :=
  (history.filterMap Step.rule?).eraseDupsBy fun rule other => other.id == rule.id

/-- The changes that steps make after an earlier history. -/
def changesAfter (earlier : List Step) : List Step → List Change
  | [] => []
  | step :: rest =>
    (step.change? (registered earlier)).toList ++ changesAfter (earlier ++ [step]) rest

def changes (history : List Step) : List Change := changesAfter [] history

/-- What every linter is opened with that is not told otherwise. -/
def standardOpening : Opening :=
  ⟨Catalog.standard.map Draft.ofDefinition, {}, Registry.standard.rules⟩

/-- What the last change opened of which `opens?` gives something. -/
def lastOpened (opens? : Change → Option Opening) (changes : List Change) : Opening :=
  (changes.reverse.findSome? opens?).getD standardOpening

/-- The changes after the last one that opened something. -/
def sinceOpened (opens? : Change → Option Opening) (changes : List Change) : List Change :=
  changes.rtakeWhile fun change => (opens? change).isNone

/-- The last linter that was opened, with the settings made after that and before
a bench was opened. -/
def lastLinter (changes : List Change) : Description where
  opening := lastOpened Change.linter? changes
  settings :=
    ((sinceOpened Change.linter? changes).takeWhile (!·.opensOwnBench)).flatMap Change.settings

/-- The last linter or bench that was opened, with the settings made after that. -/
def lastBench (changes : List Change) : Description where
  opening := lastOpened Change.bench? changes
  settings := (sinceOpened Change.bench? changes).flatMap Change.settings

theorem changesAfter_concat (earlier history : List Step) (step : Step) :
    changesAfter earlier (history ++ [step]) = changesAfter earlier history ++
      (step.change? (registered (earlier ++ history))).toList := by
  induction history generalizing earlier with
  | nil => simp [changesAfter]
  | cons first history ih =>
    rw [List.cons_append, changesAfter, ih, changesAfter, List.append_assoc, List.append_assoc,
      List.singleton_append]

theorem changes_concat (history : List Step) (step : Step) :
    changes (history ++ [step]) = changes history ++ (step.change? (registered history)).toList :=
  changesAfter_concat [] history step

section Registered

/-- A last value is kept unless it is like one that is kept before it. -/
theorem eraseDupsBy_concat {α : Type} (like : α → α → Bool) (values : List α) (last : α) :
    (values ++ [last]).eraseDupsBy like =
      if (values.eraseDupsBy like).any (like last) then values.eraseDupsBy like
      else values.eraseDupsBy like ++ [last] := by
  have loop : ∀ kept, List.eraseDupsBy.loop like (values ++ [last]) kept =
      if (List.eraseDupsBy.loop like values kept).any (like last) then
        List.eraseDupsBy.loop like values kept
      else List.eraseDupsBy.loop like values kept ++ [last] := by
    induction values with
    | nil =>
      intro kept
      simp only [List.nil_append, List.eraseDupsBy.loop, List.any_reverse]
      split <;> simp_all
    | cons first values ih =>
      intro kept
      cases seen : kept.any (like first) with
      | true =>
        simp only [List.cons_append, List.eraseDupsBy.loop, seen]
        exact ih kept
      | false =>
        simp only [List.cons_append, List.eraseDupsBy.loop, seen]
        exact ih (first :: kept)
  exact loop []

variable (history : List Step)

theorem registered_concat_of_none {step : Step} (other : step.rule? = none) :
    registered (history ++ [step]) = registered history := by
  rw [registered, List.filterMap_append, List.filterMap_cons_none other, List.filterMap_nil,
    List.append_nil, registered]

theorem registered_register (rule : Rule) :
    registered (history ++ [.register rule]) =
      if ∃ other ∈ registered history, other.id = rule.id then registered history
      else registered history ++ [rule] := by
  have last : [Step.register rule].filterMap Step.rule? = [rule] := rfl
  rw [registered, List.filterMap_append, last, eraseDupsBy_concat, ← registered]
  simp only [List.any_eq_true, beq_iff_eq]

theorem distinct_registered : ((registered history).map (·.id)).Nodup := by
  induction history using List.reverseRecOn with
  | nil => exact List.nodup_nil
  | append_singleton history step ih =>
    cases step with
    | register rule =>
      rw [registered_register]
      split
      · exact ih
      · rename_i new
        rw [List.map_append, List.map_singleton, ← List.concat_eq_append, List.nodup_concat]
        exact ⟨by simpa using new, ih⟩
    | _ => rwa [registered_concat_of_none history rfl]

end Registered

section Openings

variable {opens? : Change → Option Opening} (changes : List Change) {change : Change}

theorem lastOpened_concat_some {opening : Opening} (opens : opens? change = some opening) :
    lastOpened opens? (changes ++ [change]) = opening := by
  simp only [lastOpened, List.reverse_concat, List.findSome?_cons, opens, Option.getD_some]

theorem lastOpened_concat_none (keeps : opens? change = none) :
    lastOpened opens? (changes ++ [change]) = lastOpened opens? changes := by
  simp only [lastOpened, List.reverse_concat, List.findSome?_cons, keeps]

theorem sinceOpened_concat_some {opening : Opening} (opens : opens? change = some opening) :
    sinceOpened opens? (changes ++ [change]) = [] :=
  List.rtakeWhile_concat_neg _ _ _ (by simp [opens])

theorem sinceOpened_concat_none (keeps : opens? change = none) :
    sinceOpened opens? (changes ++ [change]) = sinceOpened opens? changes ++ [change] :=
  List.rtakeWhile_concat_pos _ _ _ (by simp [keeps])

end Openings

/-- No bench was opened since the last linter, which still serves as one. -/
def Shared (changes : List Change) : Prop :=
  ∀ change ∈ sinceOpened Change.linter? changes, change.opensOwnBench = false

section Concat

variable {changes : List Change}

theorem lastLinter_openedLinter (opening : Opening) :
    lastLinter (changes ++ [.openedLinter opening]) = ⟨opening, []⟩ := by
  rw [lastLinter, lastOpened_concat_some _ rfl, sinceOpened_concat_some _ rfl]
  rfl

theorem lastBench_opened {change : Change} {opening : Opening}
    (opens : change.bench? = some opening) : lastBench (changes ++ [change]) = ⟨opening, []⟩ := by
  rw [lastBench, lastOpened_concat_some _ opens, sinceOpened_concat_some _ opens]
  rfl

theorem lastBench_configured (settings : List Setting) :
    lastBench (changes ++ [.configured settings]) = (lastBench changes).configure settings := by
  rw [lastBench, lastOpened_concat_none _ rfl, sinceOpened_concat_none _ rfl, List.flatMap_append,
    List.flatMap_singleton]
  rfl

theorem lastLinter_shared (shared : Shared changes) {change : Change}
    (keeps : change.linter? = none) :
    lastLinter (changes ++ [change]) = (lastLinter changes).configure change.settings := by
  have all : ∀ change ∈ sinceOpened Change.linter? changes, (!change.opensOwnBench) = true := by
    intro change member
    rw [shared change member]
    rfl
  rw [lastLinter, lastOpened_concat_none _ keeps, sinceOpened_concat_none _ keeps,
    List.takeWhile_append_of_pos all, List.flatMap_append, lastLinter, Description.configure,
    List.takeWhile_eq_self_iff.mpr all]
  cases change <;> simp [Change.settings, Change.opensOwnBench]

theorem lastLinter_not_shared (own : ¬ Shared changes) {change : Change}
    (keeps : change.linter? = none) : lastLinter (changes ++ [change]) = lastLinter changes := by
  have stops : ¬ ((sinceOpened Change.linter? changes).takeWhile (!·.opensOwnBench)).length =
      (sinceOpened Change.linter? changes).length := by
    intro whole
    apply own
    intro change member
    have all := List.takeWhile_eq_self_iff.mp ((List.takeWhile_prefix _).eq_of_length whole)
    simpa using all change member
  rw [lastLinter, lastOpened_concat_none _ keeps, sinceOpened_concat_none _ keeps,
    List.takeWhile_append, if_neg stops]
  rfl

theorem shared_openedLinter (opening : Opening) : Shared (changes ++ [.openedLinter opening]) := by
  rw [Shared, sinceOpened_concat_some _ rfl]
  simp

theorem not_shared_openedBench (opening : Opening) :
    ¬ Shared (changes ++ [.openedBench opening]) := by
  rw [Shared, sinceOpened_concat_none _ rfl]
  intro shared
  have opens := shared (.openedBench opening) (by simp)
  cases opens

theorem shared_configured (settings : List Setting) :
    Shared (changes ++ [.configured settings]) ↔ Shared changes := by
  rw [Shared, sinceOpened_concat_none _ rfl]
  simp [Shared, or_imp, forall_and, Change.opensOwnBench]

end Concat

/-! ### What a step does -/

/-- The linter and the bench of a session are what the changes describe. -/
structure Follows (changes : List Change) (session : Session) : Prop where
  linter : (lastLinter changes).Pins session.linter
  bench : (lastBench changes).Pins session.bench
  shared : session.ownBench = none ↔ Shared changes

namespace Follows

variable {changes : List Change} {session : Session}

theorem openedLinter {opening : Opening} {opened : Linter}
    (pins : Description.Pins ⟨opening, []⟩ opened) :
    Follows (changes ++ [.openedLinter opening])
      { session with linter := opened, ownBench := none } where
  linter := by rwa [lastLinter_openedLinter]
  bench := by rwa [lastBench_opened rfl]
  shared := by simp [shared_openedLinter]

theorem openedBench (follows : Follows changes session) {opening : Opening} {opened : Linter}
    (pins : Description.Pins ⟨opening, []⟩ opened) :
    Follows (changes ++ [.openedBench opening]) { session with ownBench := some opened } where
  linter := by
    by_cases own : Shared changes
    · rw [lastLinter_shared own rfl]
      exact follows.linter.configure []
    · rw [lastLinter_not_shared own rfl]
      exact follows.linter
  bench := by rwa [lastBench_opened rfl]
  shared := by simp [not_shared_openedBench]

/-- Settings are made for the bench, and so for the linter while it serves as one. -/
theorem configured (follows : Follows changes session) (settings : List Setting) :
    Follows (changes ++ [.configured settings]) (session.next (.configure settings)) := by
  obtain ⟨linter, bench, shared⟩ := follows
  cases own : session.ownBench with
  | some ownBench =>
    have after : session.next (.configure settings) =
        { session with ownBench := some (session.bench.configure settings) } := by
      rw [next, step, own]
    have notShared : ¬ Shared changes := by
      rw [← shared, own]
      simp
    rw [after]
    refine ⟨?_, ?_, ?_⟩
    · rwa [lastLinter_not_shared notShared rfl]
    · rw [lastBench_configured]
      exact bench.configure settings
    · simp [shared_configured, notShared]
  | none =>
    have after : session.next (.configure settings) =
        { session with linter := session.bench.configure settings } := by
      rw [next, step, own]
    have same : session.bench = session.linter := by
      rw [Session.bench, own]
      rfl
    rw [after]
    refine ⟨?_, ?_, ?_⟩
    · rw [lastLinter_shared (shared.mp own) rfl, same]
      exact linter.configure settings
    · have unchanged : Session.bench { session with linter := session.bench.configure settings } =
          session.bench.configure settings := by
        rw [Session.bench, own]
        rfl
      rw [lastBench_configured, unchanged]
      exact bench.configure settings
    · simp [shared_configured, shared.mp own, own]

end Follows

theorem step_openLinter (session : Session) (config : Config) (drafts : List Draft) :
    session.step (.openLinter config drafts) =
      (Linter.ofDrafts drafts .standard config).map fun linter =>
        (rulesOf linter, { session with linter := linter, ownBench := none }) := rfl

theorem step_openBench (session : Session) (config : Config) (drafts : List Draft)
    (ownRegistry : Bool) :
    session.step (.openBench config drafts ownRegistry) =
      (Linter.ofDrafts drafts (if ownRegistry then session.registry else .standard) config).map
        fun bench => (rulesOf bench, { session with ownBench := some bench }) := rfl

/-- The linter for scripts without a configuration is the standard one, if there is
one. -/
def KeepsStandard (session : Session) : Prop :=
  session.defaultLinter = none ∨ session.defaultLinter = some .standard

/-- A script is linted with the linter of its configuration, whether or not that
linter was there before. -/
theorem linterFor_spec {session : Session} (keeps : session.KeepsStandard)
    (config? : Option Config) :
    (∃ linter kept, Linter.build Catalog.standard .standard (config?.getD {}) = .ok linter ∧
      session.linterFor config? = .ok (linter, { session with defaultLinter := kept }) ∧
      KeepsStandard { session with defaultLinter := kept }) ∨
    ∃ fault, Linter.build Catalog.standard .standard (config?.getD {}) = .error fault ∧
      session.linterFor config? = .error fault := by
  cases config? with
  | some config =>
    rw [Option.getD_some, linterFor]
    cases Linter.build Catalog.standard Registry.standard config with
    | ok linter => exact Or.inl ⟨linter, session.defaultLinter, rfl, rfl, keeps⟩
    | error fault => exact Or.inr ⟨fault, rfl, rfl⟩
  | none =>
    refine Or.inl ⟨.standard, some .standard, Linter.build_standard, ?_, Or.inr rfl⟩
    obtain ⟨linter, ownBench, registry, journal, defaultLinter⟩ := session
    rcases keeps with rfl | rfl <;> rfl

/-- All that a session has of its history. -/
structure Recalls (history : List Step) (session : Session) : Prop where
  registry : session.registry.rules = registered history
  follows : Follows (changes history) session
  keeps : session.KeepsStandard

namespace Recalls

variable {history : List Step} {session : Session}

/-- A step that opens, configures and registers nothing leaves no trace. -/
theorem quiet (recalls : Recalls history session) {step : Step} {after : Session}
    (change : step.change? (registered history) = none) (rule : step.rule? = none)
    (linter : after.linter = session.linter) (ownBench : after.ownBench = session.ownBench)
    (registry : after.registry = session.registry) (keeps : after.KeepsStandard) :
    Recalls (history ++ [step]) after := by
  have bench : after.bench = session.bench := by
    rw [Session.bench, Session.bench, linter, ownBench]
  refine ⟨?_, ?_, keeps⟩
  · rw [registry, registered_concat_of_none history rule, recalls.registry]
  · rw [changes_concat, change, Option.toList_none, List.append_nil]
    exact ⟨linter ▸ recalls.follows.linter, bench ▸ recalls.follows.bench,
      ownBench ▸ recalls.follows.shared⟩

/-- The rules for a bench are those of the history or the standard ones. -/
theorem rules_eq (recalls : Recalls history session) (ownRegistry : Bool) :
    (if ownRegistry then session.registry else .standard : Registry).rules =
      if ownRegistry then registered history else Registry.standard.rules := by
  cases ownRegistry with
  | false => rfl
  | true => exact recalls.registry

theorem distinct_rules (history : List Step) (ownRegistry : Bool) :
    ((if ownRegistry then registered history else Registry.standard.rules).map (·.id)).Nodup := by
  cases ownRegistry with
  | false => exact Registry.distinct_standard
  | true => exact distinct_registered history

theorem next_openLinter (recalls : Recalls history session) (config : Config)
    (drafts : List Draft) :
    Recalls (history ++ [.openLinter config drafts])
      (session.next (.openLinter config drafts)) := by
  rw [next, step_openLinter]
  rcases Linter.ofDrafts_spec drafts .standard config with
    ⟨linter, opened, sound, fits⟩ | ⟨refusal, refused, unsound⟩
  · rw [opened]
    refine ⟨?_, ?_, recalls.keeps⟩
    · rw [registered_concat_of_none history rfl]
      exact recalls.registry
    · rw [changes_concat, Step.change?, if_pos sound]
      exact Follows.openedLinter ⟨fits, Registry.distinct_standard⟩
  · rw [refused]
    exact recalls.quiet (if_neg unsound) rfl rfl rfl rfl recalls.keeps

theorem next_openBench (recalls : Recalls history session) (config : Config)
    (drafts : List Draft) (ownRegistry : Bool) :
    Recalls (history ++ [.openBench config drafts ownRegistry])
      (session.next (.openBench config drafts ownRegistry)) := by
  have rules := recalls.rules_eq ownRegistry
  rw [next, step_openBench]
  rcases Linter.ofDrafts_spec drafts (if ownRegistry then session.registry else .standard)
    config with ⟨bench, opened, sound, fits⟩ | ⟨refusal, refused, unsound⟩
  · rw [rules] at sound fits
    rw [opened]
    refine ⟨?_, ?_, recalls.keeps⟩
    · rw [registered_concat_of_none history rfl]
      exact recalls.registry
    · rw [changes_concat, Step.change?, if_pos sound]
      exact recalls.follows.openedBench ⟨fits, distinct_rules history ownRegistry⟩
  · rw [rules] at unsound
    rw [refused]
    exact recalls.quiet (if_neg unsound) rfl rfl rfl rfl recalls.keeps

theorem register?_eq_none_iff (recalls : Recalls history session) (rule : Rule) :
    session.registry.register? rule = none ↔
      ∃ other ∈ registered history, other.id = rule.id := by
  simp only [Registry.register?_eq_none_iff, recalls.registry, Evaluator.id_rule]

theorem next_register (recalls : Recalls history session) (rule : Rule) :
    Recalls (history ++ [.register rule]) (session.next (.register rule)) := by
  have changed : changes (history ++ [.register rule]) = changes history := by
    have unchanged : Step.change? (registered history) (.register rule) = none := rfl
    rw [changes_concat, unchanged, Option.toList_none, List.append_nil]
  have known := recalls.register?_eq_none_iff rule
  rw [next, step]
  cases added : session.registry.register? rule with
  | none =>
    have taken := known.mp added
    refine ⟨?_, changed ▸ recalls.follows, recalls.keeps⟩
    rw [registered_register, if_pos taken]
    exact recalls.registry
  | some registry =>
    have new : ¬ ∃ other ∈ registered history, other.id = rule.id := by
      intro taken
      rw [known.mpr taken] at added
      cases added
    refine ⟨?_, ?_, recalls.keeps⟩
    · rw [registered_register, if_neg new, ← recalls.registry]
      exact Registry.rules_of_register? added
    · rw [changed]
      exact ⟨recalls.follows.linter, recalls.follows.bench, recalls.follows.shared⟩

/-- Every step keeps a session in line with its history. -/
theorem next (recalls : Recalls history session) (step : Step) :
    Recalls (history ++ [step]) (session.next step) := by
  cases step with
  | openLinter config drafts => exact recalls.next_openLinter config drafts
  | openBench config drafts ownRegistry => exact recalls.next_openBench config drafts ownRegistry
  | register rule => exact recalls.next_register rule
  | configure settings =>
    have same : (session.next (.configure settings)).registry = session.registry ∧
        (session.next (.configure settings)).defaultLinter = session.defaultLinter := by
      rw [Session.next, step]
      cases session.ownBench <;> exact ⟨rfl, rfl⟩
    refine ⟨?_, ?_, ?_⟩
    · rw [same.1, registered_concat_of_none history rfl, recalls.registry]
    · rw [changes_concat]
      exact recalls.follows.configured settings
    · rw [KeepsStandard, same.2]
      exact recalls.keeps
  | lint config? script =>
    rw [Session.next, step]
    rcases linterFor_spec recalls.keeps config? with
      ⟨linter, kept, -, found, keeps⟩ | ⟨fault, -, failed⟩
    · rw [found]
      exact recalls.quiet rfl rfl rfl rfl rfl keeps
    · rw [failed]
      exact recalls.quiet rfl rfl rfl rfl rfl recalls.keeps
  | emit level text =>
    rw [Session.next, step]
    cases Level.ofName? level <;> exact recalls.quiet rfl rfl rfl rfl rfl recalls.keeps
  | showRules | evaluate _ _ | validate _ _ | separate _ | clear | lookup _ =>
    exact recalls.quiet rfl rfl rfl rfl rfl recalls.keeps

end Recalls

theorem recalls_start (used : Bool) : Recalls [] (start used) where
  registry := rfl
  follows := by
    have fits : Description.Fits ⟨standardOpening, []⟩ .standard :=
      ⟨rfl, by decide, fun _ => rfl⟩
    have pins : Description.Pins ⟨standardOpening, []⟩ .standard :=
      ⟨fits, Registry.distinct_standard⟩
    exact ⟨pins, pins, by simp [start, Shared, changes, changesAfter, sinceOpened]⟩
  keeps := by
    cases used with
    | false => exact Or.inl rfl
    | true => exact Or.inr rfl

theorem recalls_after (used : Bool) (history : List Step) :
    Recalls history ((start used).after history) := by
  induction history using List.reverseRecOn with
  | nil => exact recalls_start used
  | append_singleton history step ih =>
    rw [after_concat]
    exact ih.next step

/-! ### What a step answers -/

/-- No step that is taken answers with a refusal. -/
theorem step_ne_ok_refused (session after : Session) (step : Step) (refusal : Refusal) :
    session.step step ≠ .ok (.refused refusal, after) := by
  cases step with
  | openLinter config drafts =>
    rw [step_openLinter]
    cases Linter.ofDrafts drafts .standard config <;> (intro taken; cases taken)
  | openBench config drafts ownRegistry =>
    rw [step_openBench]
    cases Linter.ofDrafts drafts (if ownRegistry then session.registry else .standard) config <;>
      (intro taken; cases taken)
  | configure settings =>
    rw [Session.step]
    cases session.ownBench <;> (intro taken; cases taken)
  | lint config? script =>
    rw [Session.step]
    cases session.linterFor config? <;> (intro taken; cases taken)
  | emit level text =>
    rw [Session.step]
    cases Level.ofName? level <;> (intro taken; cases taken)
  | register rule =>
    rw [Session.step]
    cases session.registry.register? rule <;> (intro taken; cases taken)
  | showRules | evaluate _ _ | validate _ _ | separate _ | clear | lookup _ =>
    intro taken
    cases taken

theorem next_of_refused {session : Session} {step : Step} {refusal : Refusal}
    (refused : session.answer step = .refused refusal) : session.next step = session := by
  rw [answer] at refused
  rw [next]
  cases taken : session.step step with
  | error _ => rfl
  | ok outcome =>
    rw [taken] at refused
    obtain ⟨_, after⟩ := outcome
    cases refused
    exact absurd taken (step_ne_ok_refused session after step refusal)

/-- The rules that are shown are those of the bench after the step. -/
theorem answer_of_showsRules (session : Session) {step : Step} (shows : step.showsRules = true) :
    session.answer step = rulesOf (session.next step).bench ∨
      ∃ refusal, session.answer step = .refused refusal := by
  cases step with
  | openLinter config drafts =>
    rw [answer, next, step_openLinter]
    cases Linter.ofDrafts drafts .standard config with
    | ok linter => exact Or.inl rfl
    | error refusal => exact Or.inr ⟨refusal, rfl⟩
  | openBench config drafts ownRegistry =>
    rw [answer, next, step_openBench]
    cases Linter.ofDrafts drafts (if ownRegistry then session.registry else .standard) config with
    | ok bench => exact Or.inl rfl
    | error refusal => exact Or.inr ⟨refusal, rfl⟩
  | configure settings =>
    obtain ⟨linter, ownBench, registry, journal, defaultLinter⟩ := session
    cases ownBench <;> exact Or.inl rfl
  | showRules => exact Or.inl rfl
  | _ => cases shows

/-- The standard catalog is at fault with no configuration. -/
theorem build_standard_eq_error_iff {config : Config} :
    (∃ fault, Linter.build Catalog.standard Registry.standard config = .error fault) ↔
      ∃ ruleId, config.selection.Names ruleId ∧ ruleId ∉ Catalog.standard.map (·.ruleId) := by
  rw [Linter.exists_error_iff, or_iff_right (not_not_intro Linter.sound_standard)]
  simp only [Selection.mem_named_iff]

namespace Recalls

variable {history : List Step} {session : Session} (recalls : Recalls history session)
include recalls

theorem answer_lint (config? : Option Config) (script : String) :
    (∀ report, SchemaLint.lint (config?.getD {}) script = .ok report →
      session.answer (.lint config? script) =
        .report report ⟨report.events (config?.getD {}).separator⟩) ∧
    ∀ fault, SchemaLint.lint (config?.getD {}) script = .error fault →
      session.answer (.lint config? script) = .refused (.config fault) := by
  rw [SchemaLint.lint, answer, step]
  rcases linterFor_spec recalls.keeps config? with
    ⟨linter, kept, built, found, -⟩ | ⟨fault, failed, refused⟩
  · rw [built, found]
    refine ⟨?_, ?_⟩
    · intro report linted
      obtain rfl := Except.ok.inj linted
      simp only [Journal.recordRun_eq, Linter.events, (Linter.build_eq_ok_iff.mp built).2.1]
    · intro fault failed
      cases failed
  · rw [failed, refused]
    refine ⟨?_, ?_⟩
    · intro report linted
      cases linted
    · intro other same
      cases same
      rfl

theorem refused_iff (step : Step) :
    (∃ refusal, session.answer step = .refused refusal) ↔ step.Refused (registered history) := by
  cases step with
  | openLinter config drafts =>
    rw [answer, step_openLinter]
    rcases Linter.ofDrafts_spec drafts .standard config with
      ⟨linter, opened, sound, -⟩ | ⟨refusal, refused, unsound⟩
    · simp [opened, Except.map, rulesOf, Step.Refused, sound]
    · simp [refused, Except.map, Step.Refused, unsound]
  | openBench config drafts ownRegistry =>
    rw [answer, step_openBench]
    rcases Linter.ofDrafts_spec drafts (if ownRegistry then session.registry else .standard)
      config with ⟨bench, opened, sound, -⟩ | ⟨refusal, refused, unsound⟩
    · rw [recalls.rules_eq] at sound
      simp [opened, Except.map, rulesOf, Step.Refused, sound]
    · rw [recalls.rules_eq] at unsound
      simp [refused, Except.map, Step.Refused, unsound]
  | configure settings =>
    rw [answer, step]
    cases session.ownBench <;> simp [rulesOf, Step.Refused]
  | lint config? script =>
    have built : (∃ refusal, session.answer (.lint config? script) = .refused refusal) ↔
        ∃ fault, Linter.build Catalog.standard Registry.standard (config?.getD {}) =
          .error fault := by
      rw [answer, step]
      rcases linterFor_spec recalls.keeps config? with
        ⟨linter, kept, built, found, -⟩ | ⟨fault, failed, refused⟩
      · rw [built, found]
        simp
      · rw [failed, refused]
        simp
    rw [built, build_standard_eq_error_iff]
    cases config? with
    | some config => rfl
    | none => simp [Step.Refused, Selection.Names]
  | emit level text =>
    rw [answer, step, Step.Refused, ← Level.ofName?_eq_none_iff]
    cases Level.ofName? level <;> simp
  | register rule =>
    rw [answer, step, Step.Refused, ← recalls.register?_eq_none_iff rule]
    cases session.registry.register? rule <;> simp
  | showRules | evaluate _ _ | validate _ _ | separate _ | clear | lookup _ =>
    simp [answer, step, rulesOf, Step.Refused]

theorem answer_register {rule : Rule} (new : ∀ other ∈ registered history, other.id ≠ rule.id) :
    session.answer (.register rule) =
      .registered ((registered history).map (·.id) ++ [rule.id]) := by
  rw [answer, step]
  cases added : session.registry.register? rule with
  | none =>
    obtain ⟨other, member, same⟩ := (recalls.register?_eq_none_iff rule).mp added
    exact absurd same (new other member)
  | some registry =>
    simp only [Registry.rules_of_register? added, recalls.registry, List.map_append,
      List.map_singleton]

theorem find?_registry (ruleId : String) :
    session.registry.find? ruleId = (registered history).find? (·.id == ruleId) := by
  rw [Registry.find?, recalls.registry]
  rfl

end Recalls

/-- The answer to a step in the midst of a session. -/
def answerAt (used : Bool) (before : List Step) (step : Step) (later : List Step) : Option Answer :=
  ((start used).run (before ++ step :: later))[before.length]?

theorem answerAt_eq (used : Bool) (before : List Step) (step : Step) (later : List Step) :
    answerAt used before step later = some (((start used).after before).answer step) := by
  have length := length_run (start used) before
  rw [answerAt, run_append, run_cons, List.getElem?_append_right (by omega), length, Nat.sub_self]
  rfl

/-- What the answers after a history depend on. A linter or bench that fits the
history always exists; which one it is makes no difference. -/
structure Noninterference (used : Bool) (before later : List Step) : Prop where
  linter : ∃ linter, (lastLinter (changes before)).Fits linter
  bench : ∃ bench, (lastBench (changes before)).Fits bench
  /-- A script is judged by the last linter: its configuration chooses the rules and
  the separator. -/
  validate : ∀ linter, (lastLinter (changes before)).Fits linter → ∀ script journaled,
    answerAt used before (.validate script journaled) later =
      some (.report (linter.lint script)
        (if journaled then ⟨(linter.lint script).events linter.config.separator⟩
          else ((start used).after before).journal)) ∧
    (linter.lint script).outcomes = (linter.withAllRules.lint script).outcomes.filter
      fun outcome => linter.config.selection.Runs outcome.ruleId
  evaluate : ∀ bench, (lastBench (changes before)).Fits bench → ∀ script? statement,
    answerAt used before (.evaluate script? statement) later =
      some (.result (bench.evaluate (script?.map .ofString) (.ofString statement))) ∧
    (bench.evaluate (script?.map .ofString) (.ofString statement)).outcomes =
      (bench.withAllRules.evaluate (script?.map .ofString) (.ofString statement)).outcomes.filter
        fun outcome => bench.config.selection.Runs outcome.ruleId
  /-- The rules that are shown are those of the bench after the step. -/
  rules : ∀ step, step.showsRules = true → ¬ step.Refused (registered before) →
    ∀ bench, (lastBench (changes (before ++ [step]))).Fits bench →
      answerAt used before step later = some (.rules bench.catalog
        (bench.catalog.filter fun definition => bench.config.selection.Runs definition.ruleId))
  /-- A script that brings its own configuration or none is linted as if it were the
  first. -/
  lint : ∀ config? script,
    (∀ report, SchemaLint.lint (config?.getD {}) script = .ok report →
      answerAt used before (.lint config? script) later =
        some (.report report ⟨report.events (config?.getD {}).separator⟩)) ∧
    ∀ fault, SchemaLint.lint (config?.getD {}) script = .error fault →
      answerAt used before (.lint config? script) later = some (.refused (.config fault))
  register : ∀ rule, (∀ other ∈ registered before, other.id ≠ rule.id) →
    answerAt used before (.register rule) later =
      some (.registered ((registered before).map (·.id) ++ [rule.id]))
  lookup : ∀ ruleId, answerAt used before (.lookup ruleId) later =
    some (.rule ((registered before).find? (·.id == ruleId)))
  refused_iff : ∀ step, (∃ refusal, answerAt used before step later = some (.refused refusal)) ↔
    step.Refused (registered before)
  /-- A refused step might as well not have been made. -/
  refused : ∀ step, step.Refused (registered before) →
    (start used).after (before ++ [step]) = (start used).after before ∧
    ∃ refusal answers,
      (start used).run (before ++ later) = (start used).run before ++ answers ∧
      (start used).run (before ++ step :: later) =
        (start used).run before ++ .refused refusal :: answers

/-- Noninterference. What a session answers depends on the last opening, the
settings since and the rules registered until then, and on nothing else in its
history. -/
theorem run_noninterference (used : Bool) (before later : List Step) :
    Noninterference used before later := by
  have recalls := recalls_after used before
  obtain ⟨linter, bench, -⟩ := recalls.follows
  constructor
  case linter => exact ⟨_, linter.fits⟩
  case bench => exact ⟨_, bench.fits⟩
  case validate =>
    intro other fits script journaled
    refine ⟨?_, other.outcomes_lint_eq_filter script⟩
    rw [linter.eq_of_fits fits, answerAt_eq, answer, step]
    simp only [Journal.recordRun_eq]
    rfl
  case evaluate =>
    intro other fits script? statement
    refine ⟨?_, other.outcomes_evaluate_eq_filter _ _⟩
    rw [bench.eq_of_fits fits, answerAt_eq, answer, step]
  case rules =>
    intro step shows taken other fits
    have next := (recalls.next step).follows.bench
    simp only [← Selection.runs_eq_decide, ← Linter.active_eq_filter]
    rw [next.eq_of_fits fits, answerAt_eq, Option.some.injEq]
    refine (answer_of_showsRules _ shows).resolve_right ?_
    rwa [recalls.refused_iff]
  case lint => simpa only [answerAt_eq, Option.some.injEq] using recalls.answer_lint
  case register =>
    intro rule new
    rw [answerAt_eq, recalls.answer_register new]
  case lookup =>
    intro ruleId
    rw [answerAt_eq, answer, step, recalls.find?_registry]
  case refused_iff => simpa only [answerAt_eq, Option.some.injEq] using recalls.refused_iff
  case refused =>
    intro step refused
    obtain ⟨refusal, answered⟩ := (recalls.refused_iff step).mpr refused
    have same := next_of_refused answered
    refine ⟨?_, refusal, ((start used).after before).run later, run_append _ _ _, ?_⟩
    · rw [after_concat, same]
    · rw [run_append, run_cons, answered, same]

/-- A linter gets settings, another one is refused, and a bench with the session's
own rule is opened and switched off. -/
def switchedHistory : List Step :=
  [.register .noDoubleQuotes,
   .openLinter { separator := "=" } [⟨"no-double-quotes", "warning", "Quoted.", ""⟩],
   .configure [.separator "-", .separator "+"],
   .openLinter {} [⟨"no-double-quotes", "fatal", "", ""⟩],
   .openBench {} [⟨"no-double-quotes", "error", "Quoted!", ""⟩] true,
   .configure [.enabled false],
   .lint none "DROP TABLE t"]

/-- The linter has its last separator and still finds quotes, the bench finds
nothing, and a script without a configuration is linted by the standard rules. -/
theorem run_noninterference_switched :
    answerAt true switchedHistory (.validate "\"" true) [] =
      some (.report (.linted [⟨.ofString "\"", [⟨"no-double-quotes", .warning, "Quoted."⟩]⟩])
        ⟨[.message .info "Quoted.", .separator "+"]⟩) ∧
    answerAt true switchedHistory (.evaluate none "\"") [] =
      some (.result ⟨.ofString "\"", []⟩) ∧
    answerAt true switchedHistory (.lint none "") [] =
      some (.report .emptyScript ⟨[.message .error Report.emptyMessage]⟩) ∧
    (∃ refusal, answerAt true switchedHistory (.register .noDoubleQuotes) [] =
      some (.refused refusal)) := by
  have apart := run_noninterference true switchedHistory []
  have linter : (lastLinter (changes switchedHistory)).Fits
      ⟨[(⟨"no-double-quotes", .warning, "Quoted.", ""⟩, .noDoubleQuotes)], { separator := "+" }⟩ :=
    ⟨rfl, by decide, fun field => by cases field <;> rfl⟩
  have bench : (lastBench (changes switchedHistory)).Fits
      ⟨[(⟨"no-double-quotes", .error, "Quoted!", ""⟩, .noDoubleQuotes)],
        { selection := { enabled := false } }⟩ :=
    ⟨rfl, by decide, fun field => by cases field <;> rfl⟩
  refine ⟨?_, ?_, ?_, (apart.refused_iff _).mpr ⟨.noDoubleQuotes, by decide, rfl⟩⟩
  · rw [(apart.validate _ linter _ _).1]
    rfl
  · rw [(apart.evaluate _ bench _ _).1]
    rfl
  · rw [(apart.lint none "").1 .emptyScript rfl]
    rfl

end Session
end SchemaLint
