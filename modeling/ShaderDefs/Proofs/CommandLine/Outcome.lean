import ShaderDefs.CommandLine.Run
import ShaderDefs.Proofs.Definition.Body
import ShaderDefs.Proofs.Lint.Relaxing
import ShaderDefs.Proofs.Token.Coverage

/-! What the outcome of a run depends on. The exit status tells a fault of the text, a finding that is
denied and a format that the stage does not have from everything else. What is printed depends on the
text, the stage and the format alone, and relaxed rules only take messages away. -/

set_option autoImplicit false

namespace ShaderDefs

open Definition (statements readLine)

namespace Report

variable {report : Report}

theorem hasErrors_iff_exists_mem :
    report.hasErrors ↔ ∃ fault, Diagnostic.fault fault ∈ report.diagnostics := by
  rw [hasErrors, List.any_eq_true]
  constructor
  · rintro ⟨diagnostic, member, isFault⟩
    cases diagnostic with
    | fault cause => exact ⟨cause, member⟩
    | finding doubt => cases isFault
  · rintro ⟨fault, member⟩
    exact ⟨_, member, rfl⟩

theorem warningCount_pos_iff :
    0 < report.warningCount ↔ ∃ finding, Diagnostic.finding finding ∈ report.diagnostics := by
  rw [warningCount, List.countP_pos_iff]
  constructor
  · rintro ⟨diagnostic, member, isFinding⟩
    cases diagnostic with
    | fault cause => cases isFinding
    | finding doubt => exact ⟨doubt, member⟩
  · rintro ⟨finding, member⟩
    exact ⟨_, member, rfl⟩

end Report

namespace Stage

/-- Something in the text is wrong for the stage: a foreign character outside a comment, or a line that
cannot be read. -/
def HasFault (source : String) : Stage → Prop
  | .lexer => ∃ characters ∈ Text.lines source, ∃ character ∈ characters.takeWhile (· ≠ '#'),
      Token.IsForeign character
  | .parser | .validator =>
    ∃ line ∈ statements (Token.ofText source), ∃ fault, readLine line = .error fault

theorem exists_mem_unknownCharacters_iff {tokens : List Token} :
    (∃ fault, fault ∈ Fault.unknownCharacters tokens) ↔
      ∃ token ∈ tokens, ∃ character, token.kind = .unknown character := by
  simp only [Fault.unknownCharacters, List.mem_filterMap]
  constructor
  · rintro ⟨fault, token, member, made⟩
    unfold Fault.ofToken? at made
    split at made
    next character kind => exact ⟨token, member, character, kind⟩
    next => cases made
  · rintro ⟨token, member, character, kind⟩
    exact ⟨.unknownCharacter token.position character, token, member, by simp [Fault.ofToken?, kind]⟩

theorem exists_mem_faults_iff {tokens : List Token} :
    (∃ fault, fault ∈ (Definition.recover tokens).faults) ↔
      ∃ line ∈ statements tokens, ∃ fault, readLine line = .error fault := by
  simp only [Definition.mem_faults_recover_iff]
  constructor
  · rintro ⟨fault, line, statement, read⟩
    exact ⟨line, statement, fault, read⟩
  · rintro ⟨line, statement, fault, read⟩
    exact ⟨fault, line, statement, read⟩

variable (rules other : Lint.Rules) (source : String)

theorem hasErrors_report_iff (stage : Stage) :
    (stage.report rules source).hasErrors ↔ stage.HasFault source := by
  rw [Report.hasErrors_iff_exists_mem]
  cases stage with
  | lexer =>
    rw [HasFault, ← Token.exists_unknown_ofText_iff, ← exists_mem_unknownCharacters_iff]
    simp [report, Report.tokenLines]
  | parser =>
    rw [HasFault, ← exists_mem_faults_iff]
    simp [report, Report.definitionLines]
  | validator =>
    rw [HasFault, ← exists_mem_faults_iff]
    simp [report, Report.signatures]

theorem eq_validator_of_finding_mem {stage : Stage} {finding : Lint.Finding}
    (member : .finding finding ∈ (stage.report rules source).diagnostics) : stage = .validator := by
  cases stage with
  | lexer => simp [report, Report.tokenLines] at member
  | parser => simp [report, Report.definitionLines] at member
  | validator => rfl

theorem text_report (stage : Stage) :
    (stage.report rules source).text = (stage.report other source).text := by
  cases stage <;> rfl

theorem program_report (stage : Stage) :
    (stage.report rules source).program = (stage.report other source).program := by
  cases stage <;> rfl

variable {rules other}

theorem diagnostics_sublist (relaxes : rules.RelaxesTo other) (stage : Stage) :
    (stage.report other source).diagnostics.Sublist (stage.report rules source).diagnostics := by
  cases stage with
  | lexer => exact .refl _
  | parser => exact .refl _
  | validator =>
    have findings := Lint.check_sublist relaxes (Definition.recover (Token.ofText source)).definitions
    exact (List.Sublist.refl _).append (findings.map _)

end Stage

namespace CommandLine

def messages (path source : String) (diagnostics : List Diagnostic) : String :=
  String.join (diagnostics.map fun diagnostic => diagnostic.format path source ++ "\n")

namespace Request

def LacksJson (request : Request) : Prop := request.output = .json ∧ request.stage ≠ .validator

instance (request : Request) : Decidable request.LacksJson :=
  inferInstanceAs (Decidable (request.output = .json ∧ request.stage ≠ .validator))

def complaint (request : Request) : String :=
  if request.LacksJson then "JSON output is only available for the validator stage\n" else ""

def Fails (request : Request) (source : String) : Prop :=
  request.stage.HasFault source ∨ request.denyWarnings ∧ request.stage = .validator ∧
    ∃ finding, .finding finding ∈ (Stage.validator.report request.rules source).diagnostics

/-- The other request knows more built-in functions, or allows names to be unknown. -/
structure RelaxesTo (request other : Request) : Prop where
  file : other.file = request.file
  stage : other.stage = request.stage
  output : other.output = request.output
  denyWarnings : other.denyWarnings = request.denyWarnings
  builtins : request.builtins ⊆ other.builtins
  allowUnresolved : request.allowUnresolved → other.allowUnresolved

variable {request other : Request} {source : String}

theorem execute_of_lacksJson (lacks : request.LacksJson) :
    (request.execute source).exit = 2 ∧ (request.execute source).stderr =
      request.warnings source (request.report source) ++
        "JSON output is only available for the validator stage\n" := by
  obtain ⟨json, early⟩ := lacks
  have none : (request.report source).program = none := by
    rw [report]
    cases stage : request.stage with
    | lexer => rfl
    | parser => rfl
    | validator => exact absurd stage early
  simp only [execute, json, none, and_self]

theorem execute_of_not_lacksJson (has : ¬request.LacksJson) :
    (request.execute source).exit = request.status (request.report source) ∧
      (request.execute source).stderr = request.warnings source (request.report source) := by
  cases output : request.output with
  | text => simp only [execute, output, and_self]
  | debug => simp only [execute, output, and_self]
  | json =>
    have last : request.stage = .validator := by
      by_contra early
      exact has ⟨output, early⟩
    have some : ∃ program, (request.report source).program = some program := by
      rw [report, last]
      exact ⟨_, rfl⟩
    obtain ⟨program, some⟩ := some
    simp only [execute, output, some, and_self]

theorem fails_iff :
    request.Fails source ↔ (request.report source).hasErrors ||
      (request.denyWarnings && decide (0 < (request.report source).warningCount)) := by
  rw [Bool.or_eq_true, Bool.and_eq_true, decide_eq_true_iff, Report.warningCount_pos_iff, report,
    Stage.hasErrors_report_iff, Fails]
  refine or_congr_right (and_congr_right fun _ => ?_)
  constructor
  · rintro ⟨last, finds⟩
    rwa [last]
  · rintro ⟨finding, member⟩
    have last := Stage.eq_validator_of_finding_mem request.rules source member
    rw [last] at member
    exact ⟨last, finding, member⟩

/-- The exit status is 2 for a format that the stage lacks, and else 1 or 0. -/
theorem exit_execute :
    request.LacksJson ∧ (request.execute source).exit = 2 ∨
      ¬request.LacksJson ∧ request.Fails source ∧ (request.execute source).exit = 1 ∨
      ¬request.LacksJson ∧ ¬request.Fails source ∧ (request.execute source).exit = 0 := by
  by_cases lacks : request.LacksJson
  · exact .inl ⟨lacks, (execute_of_lacksJson lacks).1⟩
  · right
    rw [(execute_of_not_lacksJson lacks).1, fails_iff, status]
    split
    next fails => exact .inl ⟨lacks, fails, rfl⟩
    next passes => exact .inr ⟨lacks, passes, rfl⟩

theorem exit_execute_eq_two_iff : (request.execute source).exit = 2 ↔ request.LacksJson := by
  rcases @exit_execute request source with ⟨lacks, same⟩ | ⟨has, _, same⟩ | ⟨has, _, same⟩
  all_goals simp [*]

theorem exit_execute_eq_one_iff :
    (request.execute source).exit = 1 ↔ ¬request.LacksJson ∧ request.Fails source := by
  rcases @exit_execute request source with ⟨lacks, same⟩ | ⟨has, fails, same⟩ | ⟨has, passes, same⟩
  all_goals simp [*]

theorem exit_execute_eq_zero_iff :
    (request.execute source).exit = 0 ↔ ¬request.LacksJson ∧ ¬request.Fails source := by
  rcases @exit_execute request source with ⟨lacks, same⟩ | ⟨has, fails, same⟩ | ⟨has, passes, same⟩
  all_goals simp [*]

theorem stderr_execute :
    (request.execute source).stderr =
      messages request.file source (request.report source).diagnostics ++ request.complaint := by
  have shown : request.warnings source (request.report source) =
      messages request.file source (request.report source).diagnostics := by
    rw [warnings, Report.rendered_eq_map_format, List.map_map]
    rfl
  rw [← shown, complaint]
  by_cases lacks : request.LacksJson
  · rw [if_pos lacks, (execute_of_lacksJson lacks).2]
  · rw [if_neg lacks, (execute_of_not_lacksJson lacks).2, String.append_empty]

theorem stdout_execute (stages : other.stage = request.stage)
    (outputs : other.output = request.output) :
    (other.execute source).stdout = (request.execute source).stdout := by
  have texts : (other.report source).text = (request.report source).text := by
    rw [report, report, stages]
    exact Stage.text_report _ _ source request.stage
  have programs : (other.report source).program = (request.report source).program := by
    rw [report, report, stages]
    exact Stage.program_report _ _ source request.stage
  have dumps : dump source (other.report source) other.stage =
      dump source (request.report source) request.stage := by
    rw [stages]
    unfold dump
    rw [programs]
  unfold execute
  dsimp only
  rw [outputs, programs]
  cases request.output with
  | text => exact texts
  | debug => exact congrArg (fun shown : Dump => shown.render ++ "\n") dumps
  | json => cases (request.report source).program <;> rfl

theorem RelaxesTo.rules (relaxes : request.RelaxesTo other) : request.rules.RelaxesTo other.rules where
  builtins := relaxes.builtins
  prefixes := rfl
  outputs := rfl
  unresolved := by
    simp only [Request.rules, Lint.Rules.withWarnUnresolved, Bool.not_eq_true']
    intro asked
    rw [Bool.eq_false_iff] at asked ⊢
    exact fun allowed => asked (relaxes.allowUnresolved allowed)

theorem RelaxesTo.diagnostics_sublist (relaxes : request.RelaxesTo other) :
    (other.report source).diagnostics.Sublist (request.report source).diagnostics := by
  rw [report, report, relaxes.stage]
  exact Stage.diagnostics_sublist source relaxes.rules request.stage

theorem RelaxesTo.fails (relaxes : request.RelaxesTo other) (fails : other.Fails source) :
    request.Fails source := by
  rw [Fails, relaxes.stage, relaxes.denyWarnings] at fails
  refine fails.imp_right ?_
  rintro ⟨deny, last, finding, member⟩
  have more := Stage.diagnostics_sublist source relaxes.rules .validator
  exact ⟨deny, last, finding, more.mem member⟩

theorem RelaxesTo.lacksJson_iff (relaxes : request.RelaxesTo other) :
    other.LacksJson ↔ request.LacksJson := by
  rw [LacksJson, LacksJson, relaxes.output, relaxes.stage]

theorem RelaxesTo.complaint (relaxes : request.RelaxesTo other) :
    other.complaint = request.complaint := by
  simp only [Request.complaint, relaxes.lacksJson_iff]

/-- The exit status and the texts of a run depend on the right things only. The status is 2 for a format
that the stage lacks, else 1 where the run fails, and else 0. What is printed depends on the text, the
stage and the format. Denying warnings changes no message, and relaxing the rules only takes messages
away and lets no run fail that did not fail before. -/
theorem exit_iff_and_output_monotone (request : Request) (source : String) :
    ((request.executeOn (.ok source)).exit = 2 ↔ request.LacksJson) ∧
      ((request.executeOn (.ok source)).exit = 1 ↔ ¬request.LacksJson ∧ request.Fails source) ∧
      ((request.executeOn (.ok source)).exit = 0 ↔ ¬request.LacksJson ∧ ¬request.Fails source) ∧
      (∀ other : Request, other.stage = request.stage → other.output = request.output →
        (other.executeOn (.ok source)).stdout = (request.executeOn (.ok source)).stdout) ∧
      (∀ deny, (executeOn { request with denyWarnings := deny } (.ok source)).stderr =
        (request.executeOn (.ok source)).stderr) ∧
      ∀ other : Request, request.RelaxesTo other →
        (other.report source).diagnostics.Sublist (request.report source).diagnostics ∧
          (∃ complaint,
            (request.executeOn (.ok source)).stderr =
              messages request.file source (request.report source).diagnostics ++ complaint ∧
            (other.executeOn (.ok source)).stderr =
              messages request.file source (other.report source).diagnostics ++ complaint) ∧
          ((request.executeOn (.ok source)).exit = 0 → (other.executeOn (.ok source)).exit = 0) := by
  simp only [executeOn]
  refine ⟨?_, ?_, ?_, ?_, ?_, ?_⟩
  · exact exit_execute_eq_two_iff
  · exact exit_execute_eq_one_iff
  · exact exit_execute_eq_zero_iff
  · exact fun other stages outputs => stdout_execute stages outputs
  · intro deny
    rw [stderr_execute, stderr_execute]
    rfl
  · intro other relaxes
    refine ⟨relaxes.diagnostics_sublist, ⟨request.complaint, stderr_execute, ?_⟩, ?_⟩
    · rw [stderr_execute, relaxes.file, relaxes.complaint]
    · rw [exit_execute_eq_zero_iff, exit_execute_eq_zero_iff, relaxes.lacksJson_iff]
      exact And.imp_right (mt relaxes.fails)

/-- A function that is built in for one of two requests is unknown for the other. JSON for the same text
is refused before validation. -/
theorem outcome_of_unknown_callee :
    let source := "f x = g x # g\n"
    let strict : Request := ⟨"lit.sd", .validator, .text, [], false, true⟩
    let relaxed : Request := { strict with builtins := ["g"] }
    let early : Request := { strict with stage := .parser, output := .json }
    (strict.executeOn (.ok source)).exit = 1 ∧ (relaxed.executeOn (.ok source)).exit = 0 ∧
      (early.executeOn (.ok source)).exit = 2 ∧
      (relaxed.executeOn (.ok source)).stdout = (strict.executeOn (.ok source)).stdout ∧
      (relaxed.report source).diagnostics.Sublist (strict.report source).diagnostics ∧
      (executeOn { relaxed with allowUnresolved := true } (.ok source)).exit = 0 := by
  intro source strict relaxed early
  obtain ⟨_, fails, _, printed, _, fewer⟩ := exit_iff_and_output_monotone strict source
  obtain ⟨_, _, _, _, _, further⟩ := exit_iff_and_output_monotone relaxed source
  obtain ⟨refused, _⟩ := exit_iff_and_output_monotone early source
  have unknown : .finding ⟨.unresolvedCallee "g", "f", ⟨1, 1⟩⟩ ∈
      (Stage.validator.report strict.rules source).diagnostics := by decide +kernel
  have passes : (relaxed.executeOn (.ok source)).exit = 0 := by decide +kernel
  have knows : strict.RelaxesTo relaxed := ⟨rfl, rfl, rfl, rfl, List.nil_subset _, id⟩
  have allows : relaxed.RelaxesTo { relaxed with allowUnresolved := true } :=
    ⟨rfl, rfl, rfl, rfl, List.Subset.refl _, fun _ => rfl⟩
  refine ⟨fails.2 ⟨by decide, .inr ⟨rfl, rfl, _, unknown⟩⟩, passes, refused.2 (by decide),
    printed relaxed rfl rfl, (fewer relaxed knows).1, (further _ allows).2.2 passes⟩

end Request

end CommandLine

end ShaderDefs
