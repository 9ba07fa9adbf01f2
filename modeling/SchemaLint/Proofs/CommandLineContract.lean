import SchemaLint.CommandLine.Run
import SchemaLint.Proofs.BuildFaults
import SchemaLint.Proofs.ConsoleLines
import SchemaLint.Proofs.Layout
import SchemaLint.Proofs.RuleIsolation
import SchemaLint.Proofs.Text.Utf8

/-! What a run of the command line promises: which of its faults is reported, what
its exit code says, and what can be read off its output line by line. -/
namespace SchemaLint

theorem Linter.hasErrors_iff_exists_outcome (linter : Linter) (script : String) :
    (linter.lint script).hasErrors = true ↔
      script = "" ∨ ∃ statement ∈ Script.statements script,
        ∃ outcome ∈ (linter.evaluate (some (.ofString script)) (.ofString statement)).outcomes,
          outcome.severity = .error := by
  have empty : (linter.lint script).error?.isSome = true ↔ script = "" := by
    rw [error?_lint]
    split <;> simp_all
  have failed : 0 < (linter.lint script).count .error ↔ ∃ statement ∈ Script.statements script,
      ∃ outcome ∈ (linter.evaluate (some (.ofString script)) (.ofString statement)).outcomes,
        outcome.severity = .error := by
    simp only [Report.count, Report.outcomes, results_lint, List.countP_pos_iff, List.flatMap_map,
      List.mem_flatMap, beq_iff_eq]
    constructor
    · rintro ⟨outcome, ⟨statement, listed, member⟩, error⟩
      exact ⟨statement, listed, outcome, member, error⟩
    · rintro ⟨statement, listed, outcome, member, error⟩
      exact ⟨outcome, ⟨statement, listed, member⟩, error⟩
  rw [Report.hasErrors, Bool.or_eq_true, decide_eq_true_eq, empty, gt_iff_lt, failed]

namespace CommandLine
open Text Terminal

/-! ### Writing the options as arguments -/

def RuleOption.name : RuleOption → String
  | .disable => "--disable"
  | .only => "--only"

def Notice.name : Notice → String
  | .help => "--help"
  | .version => "--version"

namespace Options

/-- Some rules at once. -/
def addRules (options : Options) (ruleIds : List String) : RuleOption → Options
  | .disable => { options with disabled := options.disabled ++ ruleIds }
  | .only => { options with only := options.only ++ ruleIds }

/-- One way to write the options as arguments. -/
def spelling (options : Options) : List String :=
  options.disabled.flatMap (fun ruleId => [RuleOption.disable.name, ruleId]) ++
    (options.only.flatMap (fun ruleId => [RuleOption.only.name, ruleId]) ++
    (List.replicate options.verbosity "-v" ++
    ((if options.colored then [] else ["--no-colors"]) ++
    ((if options.listRules then ["--list-rules"] else []) ++
    (options.notice.toList.map Notice.name ++ "--" :: options.operands)))))

end Options

section Reading

variable (options : Options) (rest : List String)

theorem readArguments_rules (option : RuleOption) (ruleIds : List String) :
    readArguments options (ruleIds.flatMap (fun ruleId => [option.name, ruleId]) ++ rest) =
      readArguments (options.addRules ruleIds option) rest := by
  induction ruleIds generalizing options with
  | nil => cases option <;> simp [Options.addRules]
  | cons ruleId ruleIds ih =>
    have step : ∀ arguments, readArguments options (option.name :: ruleId :: arguments) =
        readArguments (options.addRule ruleId option) arguments := by
      intro arguments
      cases option <;> rfl
    rw [List.flatMap_cons, List.append_assoc, List.cons_append, List.cons_append, List.nil_append,
      step, ih]
    cases option <;> simp [Options.addRule, Options.addRules]

theorem readArguments_verbose (times : Nat) :
    readArguments options (List.replicate times "-v" ++ rest) =
      readArguments { options with verbosity := options.verbosity + times } rest := by
  induction times generalizing options with
  | zero => rfl
  | succ times ih =>
    have step : readArguments options ("-v" :: (List.replicate times "-v" ++ rest)) =
        readArguments (options.raise .verbose) (List.replicate times "-v" ++ rest) := rfl
    rw [List.replicate_succ, List.cons_append, step, ih]
    simp only [Options.raise, Nat.add_assoc, Nat.add_comm 1]

end Reading

/-- Every choice of options can be asked for. -/
theorem ofArguments_spelling (options : Options) :
    Options.ofArguments options.spelling = .ok options := by
  obtain ⟨disabled, only, colored, verbosity, listRules, notice, operands⟩ := options
  rw [Options.ofArguments, Options.spelling, readArguments_rules, readArguments_rules,
    readArguments_verbose]
  simp only [Options.addRules, List.nil_append, Nat.zero_add]
  cases colored <;> cases listRules <;> cases notice with
  | none => rfl
  | some notice => cases notice <;> rfl

/-! ### The rules that are named -/

namespace Options

/-- The options name the rule, and there is no such rule. -/
def NamesUnknown (options : Options) (ruleId : String) : Prop :=
  (ruleId ∈ options.disabled ∨ ruleId ∈ options.only) ∧
    ruleId ∉ Catalog.standard.map (·.ruleId)

theorem not_namesUnknown_of_subset {options : Options}
    (known : options.disabled ++ options.only ⊆ Catalog.standard.map (·.ruleId)) :
    ¬ ∃ ruleId, options.NamesUnknown ruleId := by
  rintro ⟨ruleId, named, unknown⟩
  exact unknown (known (List.mem_append.mpr named))

theorem mem_named_selection {options : Options} {ruleId : String} :
    ruleId ∈ options.selection.named ↔ ruleId ∈ options.disabled ∨ ruleId ∈ options.only := by
  rw [Selection.named, List.mem_append, selection]
  cases options.only with
  | nil => simp
  | cons first others => simp

/-- The rule runs: it is one of the only ones to run, or else there are no such ones
and it is not disabled. -/
def Runs (options : Options) (ruleId : String) : Prop :=
  options.only = [] ∧ ruleId ∉ options.disabled ∨ ruleId ∈ options.only

instance (options : Options) (ruleId : String) : Decidable (options.Runs ruleId) :=
  inferInstanceAs (Decidable (_ ∨ _))

/-- The linter that the options ask for: it has the standard entries and their rules,
it runs the chosen ones, and nothing else is changed. -/
structure Picks (options : Options) (linter : Linter) : Prop where
  catalog : linter.catalog = Catalog.standard
  rules : ∀ entry ∈ linter.entries,
    entry.2 ∈ Registry.standard.rules ∧ entry.2.id = entry.1.ruleId
  active : linter.active =
    Catalog.standard.filter fun definition => options.Runs definition.ruleId
  policy : linter.config.policy = {}
  separator : linter.config.separator = String.ofList (List.replicate 53 '-')

theorem runs_selection_iff {options : Options} {ruleId : String} :
    options.selection.runs ruleId = true ↔ options.Runs ruleId := by
  rw [Selection.runs_iff, Selection.Runs, selection, Runs]
  cases options.only with
  | nil => simp
  | cons first others => simp

/-- The linter for the selection of the options. -/
def build (options : Options) : Except ConfigFault Linter :=
  Linter.build Catalog.standard Registry.standard { selection := options.selection }

variable {options : Options}

theorem exists_build_iff :
    (∃ linter, options.build = .ok linter) ↔ ¬ ∃ ruleId, options.NamesUnknown ruleId := by
  have failed : (∃ fault, options.build = .error fault) ↔
      ∃ ruleId, options.NamesUnknown ruleId := by
    rw [build, Linter.exists_error_iff, or_iff_right (not_not_intro Linter.sound_standard)]
    simp only [mem_named_selection, NamesUnknown]
  rw [← failed]
  cases options.build <;> simp

theorem picks_of_build {linter : Linter} (built : options.build = .ok linter) :
    options.Picks linter := by
  obtain ⟨resolved, config, -⟩ := Linter.build_eq_ok_iff.mp built
  refine ⟨resolved.catalog_eq, ?_, ?_, ?_, ?_⟩
  · intro entry member
    exact Registry.mem_of_find? (resolved.registered entry member)
  · rw [Linter.active_of_build built]
    apply List.filter_congr
    intro definition _
    rw [Bool.eq_iff_iff, decide_eq_true_iff]
    exact runs_selection_iff
  · rw [config]
  · rw [config]

theorem build_eq_error {fault : ConfigFault} (failed : options.build = .error fault) :
    ∃ first others, fault = .unknownRules first others ∧
      (first :: others).Pairwise (fun earlier later => codePoints earlier < codePoints later) ∧
      ∀ ruleId, ruleId ∈ first :: others ↔ options.NamesUnknown ruleId := by
  obtain ⟨first, others, same, sorted, unknown⟩ :=
    (Linter.build_eq_error_iff Linter.sound_standard).mp failed
  refine ⟨first, others, same, ?_, ?_⟩
  · simpa only [codePoints_lt_iff] using sorted
  · intro ruleId
    rw [unknown, mem_named_selection, NamesUnknown]

end Options

/-! ### The run -/

/-- The run comes to look at the rule ids and the bytes of its script: no notice and
no list of the rules is asked for, and the script can be opened. -/
structure Lints (inputs : Inputs) (options : Options) (bytes : List UInt8) : Prop where
  notice : options.notice = none
  listRules : options.listRules = false
  operands : options.operands.length ≤ 1
  opened : inputs.openTarget options.target = .ok bytes

/-- The exit of a run with some linter, if there is one. -/
def lintExit (streams : Streams) (options : Options) (bytes : List UInt8) :
    Except ConfigFault Linter → Exit
  | .ok linter => lintBytes streams options linter bytes
  | .error fault =>
    ⟨2, "", Trace.output options.verbosity [.configFault fault] ++
      printed streams.errKeepsEscapes ("Configuration error: " ++ fault.message)⟩

theorem run_eq {inputs : Inputs} {options : Options} {bytes : List UInt8}
    (lints : Lints inputs options bytes) {arguments : List String}
    (read : Options.ofArguments arguments = .ok options) (streams : Streams) :
    run streams inputs arguments = lintExit streams options bytes options.build := by
  obtain ⟨notice, listRules, operands, opened⟩ := lints
  have few : options.operands.drop 1 = [] := List.drop_eq_nil_iff.mpr operands
  simp only [run, Options.prepare, read, notice, opened, Options.linter, few, listRules,
    Bool.false_eq_true, if_false, Options.build]
  cases Linter.build Catalog.standard Registry.standard { selection := options.selection } <;> rfl

/-! ### What the exit says -/

/-- The exit of a run that linted a script: its code, and its lines without
colours. -/
structure Linted (streams : Streams) (options : Options) (linter : Linter) (script : String)
    (exit : Exit) : Prop where
  code_le : exit.code ≤ 1
  code_iff : exit.code = 1 ↔ script = "" ∨ ∃ statement ∈ Script.statements script,
    ∃ outcome ∈ (linter.evaluate (some (.ofString script)) (.ofString statement)).outcomes,
      outcome.severity = .error
  lines : options.colored = false ∨ streams.outKeepsEscapes = false →
    pieces (· == '\n') exit.stdout.toList =
      linter.plainLines script streams.outKeepsEscapes ++ [[]]
  beginnings : ∀ line ∈ linter.plainLines script streams.outKeepsEscapes,
    (∃ level, heading level <+: line) ∨ line = linter.config.separator.toList
  error_iff : options.colored = false ∨ streams.outKeepsEscapes = false →
    (exit.code = 1 ↔ ∃ line ∈ pieces (· == '\n') exit.stdout.toList, heading .error <+: line)

/-- What the exit says about the rules that the options name and the bytes of the
script. -/
structure Contract (streams : Streams) (options : Options) (bytes : List UInt8) (exit : Exit) :
    Prop where
  refused_iff : exit.code = 2 ∧ exit.stdout = "" ↔
    (∃ ruleId, options.NamesUnknown ruleId) ∨ ¬ Utf8.Valid bytes
  /-- An unknown rule is reported whatever the bytes are. -/
  unknownRules : (∃ ruleId, options.NamesUnknown ruleId) → ∃ first others,
    (first :: others).Pairwise (fun earlier later => codePoints earlier < codePoints later) ∧
    (∀ ruleId, ruleId ∈ first :: others ↔ options.NamesUnknown ruleId) ∧
    exit.stderr = Trace.output options.verbosity [.configFault (.unknownRules first others)] ++
      printed streams.errKeepsEscapes ("Configuration error: " ++
        ("Unknown rule(s) in configuration: " ++ ", ".intercalate (first :: others) ++ "."))
  notUtf8 : (¬ ∃ ruleId, options.NamesUnknown ruleId) → ¬ Utf8.Valid bytes →
    ∃ front, ∃ reason : Utf8.Reason, Utf8.LongestValid front bytes ∧
      exit.stderr = Trace.output options.verbosity
          [.rulesLoaded (Catalog.standard.map (·.ruleId))] ++ usage ++
        ("Error: " ++
          s!"Invalid value for SCRIPT: not valid UTF-8 ({reason.message} at byte {front.length})" ++
          "\n")
  linted : (¬ ∃ ruleId, options.NamesUnknown ruleId) → ∀ text, bytes = Utf8.encode text →
    ∃ linter, options.Picks linter ∧ Linted streams options linter (String.ofList text) exit
  /-- The code of a run that linted a script, without regard to how it did. -/
  code_iff : (¬ ∃ ruleId, options.NamesUnknown ruleId) → ∀ text, bytes = Utf8.encode text →
    (exit.code = 1 ↔ text = [] ∨ ∃ statement ∈ Script.statements (String.ofList text),
      ∃ definition ∈ Catalog.standard, options.Runs definition.ruleId ∧
        definition.severity = .error ∧ ∃ rule ∈ Registry.standard.rules,
          rule.id = definition.ruleId ∧
          rule.violation? {} (some (.ofString (String.ofList text))) (.ofString statement) ≠ none)

theorem UsageFault.message_notUtf8 (reason : Utf8.Reason) (offset : Nat) :
    (UsageFault.notUtf8 ⟨reason, offset⟩).message =
      s!"Invalid value for SCRIPT: not valid UTF-8 ({reason.message} at byte {offset})" := rfl

theorem UsageFault.escape_not_mem_message (fault : Utf8.Fault) :
    escape ∉ (UsageFault.notUtf8 fault).message.toList := by
  obtain ⟨reason, offset⟩ := fault
  have digits : escape ∉ (toString offset).toList := by
    intro member
    change escape ∈ (Nat.repr offset).toList at member
    rw [Nat.repr, String.toList_ofList] at member
    have digit := Nat.isDigit_of_mem_toDigits (by decide) (by decide) member
    exact absurd digit (by decide)
  have named : escape ∉ reason.message.toList := by
    cases reason <;> decide
  rw [message_notUtf8]
  simp only [String.toList_append, List.mem_append, not_or]
  exact ⟨⟨⟨⟨by decide +kernel, named⟩, by decide⟩, digits⟩, by decide⟩

section Linted

variable (streams : Streams) (options : Options) (linter : Linter)

theorem code_lintBytes (text : List Char) :
    (lintBytes streams options linter (Utf8.encode text)).code =
      if (linter.lint (String.ofList text)).hasErrors then 1 else 0 := by
  simp only [lintBytes, Utf8.decode_eq_ok_iff.mpr rfl, Linter.lint_markBreaks]

theorem stdout_lintBytes (text : List Char) :
    (lintBytes streams options linter (Utf8.encode text)).stdout =
      Console.output ⟨options.colored, streams.outKeepsEscapes⟩
        (linter.signals (String.ofList text)) := by
  have same := Linter.sameRun_of_lint_eq (linter.lint_markBreaks text)
  simp only [lintBytes, Utf8.decode_eq_ok_iff.mpr rfl, same.2]

variable {options linter}

theorem linted_lintBytes (built : options.build = .ok linter) (text : List Char) :
    Linted streams options linter (String.ofList text)
      (lintBytes streams options linter (Utf8.encode text)) := by
  have dashes : linter.config.separator = String.ofList (List.replicate 53 '-') := by
    rw [(Linter.build_eq_ok_iff.mp built).2.1]
  have clean : ∀ c, c ≠ '-' → c ∉ linter.config.separator.toList := by
    intro c other member
    rw [dashes, String.toList_ofList] at member
    exact other (List.eq_of_mem_replicate member)
  have unbroken : linter.Unbroken := by
    refine Linter.unbroken_of_build_standard built ?_
    rw [← (Linter.build_eq_ok_iff.mp built).2.1]
    exact clean '\n' (by decide)
  have code : (lintBytes streams options linter (Utf8.encode text)).code = 1 ↔
      (linter.lint (String.ofList text)).hasErrors = true := by
    rw [code_lintBytes]
    split <;> simp_all
  have lines : options.colored = false ∨ streams.outKeepsEscapes = false →
      pieces (· == '\n') (lintBytes streams options linter (Utf8.encode text)).stdout.toList =
        linter.plainLines (String.ofList text) streams.outKeepsEscapes ++ [[]] := by
    intro plain
    rw [stdout_lintBytes]
    exact unbroken.pieces_output (String.ofList text) plain
  refine ⟨?_, ?_, lines, ?_, ?_⟩
  · rw [code_lintBytes]
    split <;> decide
  · rw [code, Linter.hasErrors_iff_exists_outcome]
  · intro line member
    exact Linter.heading_or_separator_of_mem_plainLines (clean escape (by decide)) member
  · intro plain
    rw [code, lines plain, ← Linter.exists_error_line_iff (clean '[' (by decide)) _
      streams.outKeepsEscapes]
    simp [heading]

theorem code_eq_one_iff (built : options.build = .ok linter) {text : List Char} {exit : Exit}
    (linted : Linted streams options linter (String.ofList text) exit) :
    exit.code = 1 ↔ text = [] ∨ ∃ statement ∈ Script.statements (String.ofList text),
      ∃ definition ∈ Catalog.standard, options.Runs definition.ruleId ∧
        definition.severity = .error ∧ ∃ rule ∈ Registry.standard.rules,
          rule.id = definition.ruleId ∧
          rule.violation? {} (some (.ofString (String.ofList text))) (.ofString statement) ≠
            none := by
  have empty : String.ofList text = "" ↔ text = [] := by
    rw [← String.toList_eq_nil_iff, String.toList_ofList]
  have found : ∀ ruleId rule, Registry.standard.find? ruleId = some rule ↔
      rule ∈ Registry.standard.rules ∧ rule.id = ruleId :=
    fun _ _ => Registry.find?_eq_some_iff Registry.distinct_standard
  rw [linted.code_iff, empty]
  simp only [Linter.exists_severity_iff built, Options.runs_selection_iff, found, and_assoc]

theorem lintBytes_of_decode_eq_error (built : options.build = .ok linter) {bytes : List UInt8}
    {fault : Utf8.Fault} (refused : Utf8.decode bytes = .error fault) :
    lintBytes streams options linter bytes = ⟨2, "", Trace.output options.verbosity
        [.rulesLoaded (Catalog.standard.map (·.ruleId))] ++ usage ++
      ("Error: " ++ (UsageFault.notUtf8 fault).message ++ "\n")⟩ := by
  have catalog : linter.catalog = Catalog.standard :=
    (Linter.build_eq_ok_iff.mp built).1.catalog_eq
  have clean : escape ∉ ("Error: " ++ (UsageFault.notUtf8 fault).message).toList := by
    rw [String.toList_append, List.mem_append, not_or]
    exact ⟨by decide, UsageFault.escape_not_mem_message fault⟩
  simp only [lintBytes, refused, UsageFault.exit, catalog, printed_eq clean]
  rfl

end Linted

theorem contract_lintExit (streams : Streams) (options : Options) (bytes : List UInt8) :
    Contract streams options bytes (lintExit streams options bytes options.build) := by
  cases built : options.build with
  | error fault =>
    have unknown : ∃ ruleId, options.NamesUnknown ruleId := by
      by_contra known
      obtain ⟨linter, other⟩ := Options.exists_build_iff.mpr known
      rw [built] at other
      cases other
    obtain ⟨first, others, rfl, sorted, named⟩ := Options.build_eq_error built
    exact {
      refused_iff := iff_of_true ⟨rfl, rfl⟩ (Or.inl unknown)
      unknownRules := fun _ => ⟨first, others, sorted, named, rfl⟩
      notUtf8 := fun known => absurd unknown known
      linted := fun known => absurd unknown known
      code_iff := fun known => absurd unknown known }
  | ok linter =>
    have known : ¬ ∃ ruleId, options.NamesUnknown ruleId :=
      Options.exists_build_iff.mp ⟨linter, built⟩
    cases decoded : Utf8.decode bytes with
    | error fault =>
      obtain ⟨reason, offset⟩ := fault
      have invalid : ¬ Utf8.Valid bytes := by
        rw [← Utf8.exists_decode_eq_ok_iff, decoded]
        simp
      have exit := lintBytes_of_decode_eq_error streams built decoded
      obtain ⟨front, longest, rfl⟩ := Utf8.longestValid_of_decode_eq_error decoded
      rw [lintExit, exit, UsageFault.message_notUtf8]
      exact {
        refused_iff := iff_of_true ⟨rfl, rfl⟩ (Or.inr invalid)
        unknownRules := fun unknown => absurd unknown known
        notUtf8 := fun _ _ => ⟨front, reason, longest, rfl⟩
        linted := fun _ text encoded => absurd ⟨text, encoded⟩ invalid
        code_iff := fun _ text encoded => absurd ⟨text, encoded⟩ invalid }
    | ok text =>
      obtain rfl := Utf8.decode_eq_ok_iff.mp decoded
      have linted := linted_lintBytes streams built text
      have valid : Utf8.Valid (Utf8.encode text) := ⟨text, rfl⟩
      rw [lintExit]
      exact {
        refused_iff := by
          have code := linted.code_le
          constructor
          · rintro ⟨refused, -⟩
            omega
          · rintro (unknown | invalid)
            · exact absurd unknown known
            · exact absurd valid invalid
        unknownRules := fun unknown => absurd unknown known
        notUtf8 := fun _ invalid => absurd valid invalid
        linted := by
          intro _ other encoded
          have same := decoded.symm.trans (Utf8.decode_eq_ok_iff.mpr encoded)
          cases same
          exact ⟨linter, Options.picks_of_build built, linted⟩
        code_iff := by
          intro _ other encoded
          have same := decoded.symm.trans (Utf8.decode_eq_ok_iff.mpr encoded)
          cases same
          exact code_eq_one_iff streams built linted }

theorem lintExit_verbosity (streams : Streams) (options : Options) (verbosity : Nat)
    (bytes : List UInt8) (result : Except ConfigFault Linter) :
    let other := lintExit streams { options with verbosity := verbosity } bytes result
    other.code = (lintExit streams options bytes result).code ∧
      other.stdout = (lintExit streams options bytes result).stdout := by
  cases result with
  | error fault => exact ⟨rfl, rfl⟩
  | ok linter =>
    simp only [lintExit, lintBytes]
    cases Utf8.decode bytes <;> exact ⟨rfl, rfl⟩

/-- The contract of the command line. It holds for all options, which can all be
asked for, and however often the run is asked to be verbose. -/
theorem run_contract {inputs : Inputs} {options : Options} {bytes : List UInt8}
    (lints : Lints inputs options bytes) (streams : Streams) :
    Options.ofArguments options.spelling = .ok options ∧
    ∀ arguments, Options.ofArguments arguments = .ok options →
      Contract streams options bytes (run streams inputs arguments) ∧
      ∀ others verbosity,
        Options.ofArguments others = .ok { options with verbosity := verbosity } →
        (run streams inputs others).code = (run streams inputs arguments).code ∧
        (run streams inputs others).stdout = (run streams inputs arguments).stdout := by
  refine ⟨ofArguments_spelling options, ?_⟩
  intro arguments read
  rw [run_eq lints read]
  refine ⟨contract_lintExit streams options bytes, ?_⟩
  intro others verbosity readOther
  have lintsOther : Lints inputs { options with verbosity := verbosity } bytes :=
    ⟨lints.notice, lints.listRules, lints.operands, lints.opened⟩
  rw [run_eq lintsOther readOther]
  exact lintExit_verbosity streams options verbosity bytes options.build

/-- A script with a missing tablespace and double quotes: without the rule on quotes
the run fails, with that rule alone it passes. A script of which the third byte
completes nothing is not linted. -/
theorem run_contract_selected :
    (Lints ⟨Utf8.encode "CREATE TABLE \"t\"".toList, fun _ => .error .missing⟩
      { disabled := ["no-double-quotes"], colored := false, verbosity := 2 }
      (Utf8.encode "CREATE TABLE \"t\"".toList) ∧
    (run {} ⟨Utf8.encode "CREATE TABLE \"t\"".toList, fun _ => .error .missing⟩
      ["-vv", "--no-colors", "--disable=no-double-quotes"]).code = 1) ∧
    (Lints ⟨Utf8.encode "CREATE TABLE \"t\"".toList, fun _ => .error .missing⟩
      { only := ["no-double-quotes"] } (Utf8.encode "CREATE TABLE \"t\"".toList) ∧
    (run {} ⟨Utf8.encode "CREATE TABLE \"t\"".toList, fun _ => .error .missing⟩
      ["--only", "no-double-quotes"]).code = 0) ∧
    Lints ⟨[0x61, 0xC3, 0x28], fun _ => .error .missing⟩ {} [0x61, 0xC3, 0x28] ∧
    (run {} ⟨[0x61, 0xC3, 0x28], fun _ => .error .missing⟩ []).code = 2 := by
  refine ⟨?_, ?_, ?_⟩
  · have lints : Lints ⟨Utf8.encode "CREATE TABLE \"t\"".toList, fun _ => .error .missing⟩
        { disabled := ["no-double-quotes"], colored := false, verbosity := 2 }
        (Utf8.encode "CREATE TABLE \"t\"".toList) := ⟨rfl, rfl, by decide, rfl⟩
    obtain ⟨contract, -⟩ := (run_contract lints {}).2
      ["-vv", "--no-colors", "--disable=no-double-quotes"] rfl
    have code := contract.code_iff (Options.not_namesUnknown_of_subset (by decide)) _ rfl
    refine ⟨lints, code.mpr (Or.inr ⟨"CREATE TABLE \"t\"", ?_, _, List.mem_cons_self, by decide,
      rfl, .tableTablespace, by decide, rfl, ?_⟩)⟩
    · decide +kernel
    · decide +kernel
  · have lints : Lints ⟨Utf8.encode "CREATE TABLE \"t\"".toList, fun _ => .error .missing⟩
        { only := ["no-double-quotes"] } (Utf8.encode "CREATE TABLE \"t\"".toList) :=
      ⟨rfl, rfl, by decide, rfl⟩
    obtain ⟨contract, -⟩ := (run_contract lints {}).2 ["--only", "no-double-quotes"] rfl
    have known : ¬ ∃ ruleId, Options.NamesUnknown { only := ["no-double-quotes"] } ruleId :=
      Options.not_namesUnknown_of_subset (by decide)
    have warnings : ∀ definition ∈ Catalog.standard,
        Options.Runs { only := ["no-double-quotes"] } definition.ruleId →
          definition.severity ≠ .error := by decide
    have passed : ¬ (run {} ⟨Utf8.encode "CREATE TABLE \"t\"".toList, fun _ => .error .missing⟩
        ["--only", "no-double-quotes"]).code = 1 := by
      rw [contract.code_iff known _ rfl]
      rintro (empty | ⟨_, _, definition, listed, runs, error, _⟩)
      · cases empty
      · exact warnings definition listed runs error
    obtain ⟨_, -, linted⟩ := contract.linted known _ rfl
    have code := linted.code_le
    exact ⟨lints, by omega⟩
  · have lints : Lints ⟨[0x61, 0xC3, 0x28], fun _ => .error .missing⟩ {} [0x61, 0xC3, 0x28] :=
      ⟨rfl, rfl, by decide, rfl⟩
    have invalid : ¬ Utf8.Valid [0x61, 0xC3, 0x28] := by
      rw [← Utf8.exists_decode_eq_ok_iff]
      rintro ⟨text, read⟩
      cases read
    obtain ⟨contract, -⟩ := (run_contract lints {}).2 [] rfl
    exact ⟨lints, (contract.refused_iff.mpr (Or.inr invalid)).1⟩

end CommandLine
end SchemaLint
