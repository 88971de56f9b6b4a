import Mathlib.Data.List.Forall2
import ShaderDefs.Proofs.Canonical.RoundTrip
import ShaderDefs.Proofs.Definition.Recovery
import ShaderDefs.Proofs.Lint.Findings

/-! Rebuilding definitions from the program of a report. The program has all that validation looks at
except the places of parameters, so validation comes to the same again. -/

set_option autoImplicit false

namespace ShaderDefs

def Definition.withoutParameterPositions (definition : Definition) : Definition :=
  { definition with parameterPositions := [] }

/-- The definition that a function of a program stands for, as far as the program tells. -/
def Signature.rebuild (signature : Signature) : Except Fault Definition :=
  (Canonical.read signature.expression).map fun body =>
    { name := signature.name
      parameters := signature.arguments
      parameterPositions := []
      body := body
      position := signature.position }

def Program.rebuild (program : Program) : Except Fault (List Definition) :=
  program.functions.mapM (·.rebuild)

theorem Signature.rebuild_ofDefinition {definition : Definition}
    (read : Canonical.read (definition.body.print .compact) = .ok definition.body) :
    (ofDefinition definition).rebuild = .ok definition.withoutParameterPositions := by
  unfold rebuild ofDefinition
  rw [read]
  rfl

namespace Program

theorem rebuild_ofDefinitions {definitions : List Definition}
    (read : ∀ definition ∈ definitions,
      Canonical.read (definition.body.print .compact) = .ok definition.body) :
    (ofDefinitions definitions).rebuild =
      .ok (definitions.map (·.withoutParameterPositions)) := by
  unfold rebuild ofDefinitions
  induction definitions with
  | nil => rfl
  | cons definition rest ih =>
    obtain ⟨own, others⟩ := List.forall_mem_cons.1 read
    rw [List.map_cons, List.mapM_cons, Signature.rebuild_ofDefinition own, ih others]
    rfl

theorem ofDefinitions_withoutParameterPositions (definitions : List Definition) :
    ofDefinitions (definitions.map (·.withoutParameterPositions)) = ofDefinitions definitions := by
  rw [ofDefinitions, List.map_map]
  rfl

end Program

namespace Lint

def Issue.isOnParameter : Issue → Bool
  | .parameterShadowsFunction _ | .duplicateParameter _ => true
  | _ => false

/-- Both findings raise the same issue with the definition, so they have the same code and description.
They stand at the same place, but where the first is on a parameter and stands there, the second stands
at the definition. -/
structure Finding.FallsBack (definition : Definition) (finding again : Finding) : Prop where
  issue_eq : again.issue = finding.issue
  definition_eq : again.definition = finding.definition
  named : finding.definition = definition.name
  place : finding.issue.isOnParameter = false → again.position = finding.position
  parameterPlace : finding.issue.isOnParameter →
    finding.position ∈ definition.parameterPositions ∧ again.position = definition.position

variable {rules : Rules} {names earlier : List String} {definition : Definition}

theorem checkOne_withoutParameterPositions :
    checkOne rules names earlier definition.withoutParameterPositions =
      (checkOne rules names earlier definition).map (·.relocate fun _ => definition.position) := by
  have parameters : checkParameters definition.withoutParameterPositions =
      checkParameters (definition.relocate fun _ => definition.position) := by
    unfold checkParameters
    congr 1
    funext indexed
    rw [Definition.parameterPosition_relocate]
    rfl
  simp only [checkOne, List.map_append, ← checkName_relocate, ← checkParameters_relocate,
    ← checkOutput_relocate, ← checkCallees_relocate, parameters]
  rfl

theorem fallsBack_findingAt {issue : Issue} (other : issue.isOnParameter = false) :
    (findingAt definition definition.position issue).FallsBack definition
      (findingAt definition definition.position issue) where
  issue_eq := rfl
  definition_eq := rfl
  named := rfl
  place _ := rfl
  parameterPlace onParameter := absurd onParameter (Bool.eq_false_iff.1 other)

theorem fallsBack_of_mem_checkOne
    (placed : definition.parameterPositions.length = definition.parameters.length) {finding : Finding}
    (member : finding ∈ checkOne rules names earlier definition) :
    finding.FallsBack definition (finding.relocate fun _ => definition.position) := by
  simp only [checkOne, List.mem_append] at member
  rcases member with ((onName | onParameter) | onOutput) | onCallee
  · obtain ⟨_, rfl⟩ := mem_checkName_iff.1 onName
    exact fallsBack_findingAt rfl
  · obtain ⟨index, parameter, found, issue, issues, rfl⟩ := mem_checkParameters_iff.1 onParameter
    have low := (List.getElem?_eq_some_iff.1 found).1
    rw [← placed] at low
    have inPositions : definition.parameterPosition index ∈ definition.parameterPositions := by
      rw [Definition.parameterPosition, List.getElem?_eq_getElem low]
      exact List.getElem_mem low
    have isOnParameter : issue.isOnParameter := by
      rcases mem_parameterIssues_iff.1 issues with ⟨_, rfl⟩ | ⟨_, rfl⟩ <;> rfl
    refine ⟨rfl, rfl, rfl, fun other => ?_, fun _ => ⟨inPositions, rfl⟩⟩
    exact absurd isOnParameter (Bool.eq_false_iff.1 other)
  · obtain ⟨_, rfl⟩ := mem_checkOutput_iff.1 onOutput
    exact fallsBack_findingAt rfl
  · obtain ⟨_, callee, _, _, rfl⟩ := mem_checkCallees_iff.1 onCallee
    exact fallsBack_findingAt rfl

theorem forall₂_checkFrom {definitions : List Definition}
    (placed : ∀ definition ∈ definitions,
      definition.parameterPositions.length = definition.parameters.length) :
    List.Forall₂ (fun finding again => ∃ definition ∈ definitions, finding.FallsBack definition again)
      (checkFrom rules names earlier definitions)
      (checkFrom rules names earlier (definitions.map (·.withoutParameterPositions))) := by
  induction definitions generalizing earlier with
  | nil => exact .nil
  | cons definition rest ih =>
    obtain ⟨own, others⟩ := List.forall_mem_cons.1 placed
    rw [List.map_cons, checkFrom, checkFrom, checkOne_withoutParameterPositions]
    refine List.rel_append ?_ ?_
    · rw [List.forall₂_map_right_iff, List.forall₂_same]
      exact fun finding member =>
        ⟨definition, List.mem_cons_self, fallsBack_of_mem_checkOne own member⟩
    · refine (ih others).imp fun finding again => ?_
      rintro ⟨other, member, fallsBack⟩
      exact ⟨other, List.mem_cons_of_mem _ member, fallsBack⟩

/-- Checking looks at the places of parameters only to say where a finding is. -/
theorem forall₂_check (rules : Rules) {definitions : List Definition}
    (placed : ∀ definition ∈ definitions,
      definition.parameterPositions.length = definition.parameters.length) :
    List.Forall₂ (fun finding again => ∃ definition ∈ definitions, finding.FallsBack definition again)
      (check rules definitions)
      (check rules (definitions.map (·.withoutParameterPositions))) := by
  have names : (definitions.map (·.withoutParameterPositions)).map (·.name) =
      definitions.map (·.name) := by
    rw [List.map_map]
    rfl
  rw [check, check, names]
  exact forall₂_checkFrom placed

end Lint

def Diagnostic.finding? : Diagnostic → Option Lint.Finding
  | .fault _ => none
  | .finding doubt => some doubt

namespace Report

theorem filterMap_finding? (rules : Lint.Rules) (source : String) :
    (Stage.validator.report rules source).diagnostics.filterMap Diagnostic.finding? =
      Lint.check rules (Definition.recover (Token.ofText source)).definitions := by
  simp [Stage.report, signatures, Validation.ofDefinitions, List.filterMap_append,
    List.filterMap_map, Function.comp_def, Diagnostic.finding?]

/-- The program of a report is complete. Each expression in it can be read back, and the definitions
rebuilt from the program alone are validated to the same program and to the findings of the report,
in their order. Only a finding on a parameter stands elsewhere, at its definition. -/
theorem validation_of_rebuilt_program (rules : Lint.Rules) (source : String) :
    let definitions := (Definition.recover (Token.ofText source)).definitions
    let report := Stage.validator.report rules source
    ∃ program rebuilt, report.program = some program ∧
      (∀ function ∈ program.functions, ∃ expr, Canonical.read function.expression = .ok expr) ∧
      program.rebuild = .ok rebuilt ∧
      (Validation.ofDefinitions rules rebuilt).program = program ∧
      List.Forall₂
        (fun finding again => ∃ definition ∈ definitions, finding.FallsBack definition again)
        (report.diagnostics.filterMap Diagnostic.finding?)
        (Validation.ofDefinitions rules rebuilt).findings := by
  intro definitions report
  have read : ∀ definition ∈ definitions,
      Canonical.read (definition.body.print .compact) = .ok definition.body := by
    intro definition member
    obtain ⟨formed, shallow⟩ := Definition.body_of_mem_recover member
    have deeper := definition.body.depth_eq_height_add_one
    exact Canonical.read_print_of_le formed .compact (by omega)
  have placed : ∀ definition ∈ definitions,
      definition.parameterPositions.length = definition.parameters.length := by
    intro definition member
    obtain ⟨line, statement, read⟩ := Definition.mem_recover_iff.1 member
    obtain ⟨name, parameters, header⟩ :=
      Definition.exists_header_of_readLine (Definition.spelled_of_mem statement) read
    rw [header.parameterPositions_eq, header.parameters_eq, List.length_map, List.length_map]
  refine ⟨.ofDefinitions definitions, definitions.map (·.withoutParameterPositions), rfl, ?_,
    Program.rebuild_ofDefinitions read, ?_, ?_⟩
  · intro function member
    obtain ⟨definition, inDefinitions, rfl⟩ := List.mem_map.1 member
    exact ⟨definition.body, read definition inDefinitions⟩
  · exact Program.ofDefinitions_withoutParameterPositions definitions
  · rw [filterMap_finding?]
    exact Lint.forall₂_check rules placed

end Report

end ShaderDefs
