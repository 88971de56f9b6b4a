import ShaderDefs.Proofs.Definition.Body
import ShaderDefs.Proofs.Lint.Findings
import ShaderDefs.Proofs.Report.Statements

/-! What diagnostics are about. Each one stands at a token of the text, and the token is the one that
the message speaks of. -/

set_option autoImplicit false

namespace ShaderDefs

open Definition (statements readLine)

namespace Definition

variable {source : String}

/-- Of the tokens of a short text only the input end can stand where another token stands. -/
theorem eq_of_position_eq (short : source.length < UInt32.size - 1) {line : List Token}
    (statement : line ∈ statements (Token.ofText source)) {token other : Token}
    (member : token ∈ line) (inText : other ∈ Token.ofText source)
    (same : other.position = token.position) : other = token ∨ other.kind = .inputEnd := by
  rcases exists_mem_of_mem_ofText inText with ⟨another, inLines, inLine⟩ | ends
  · left
    have ordered := pairwise_before_of_mem short statement
    rw [statements_eq_map] at statement inLines
    obtain ⟨first, inFirst, rfl⟩ := List.mem_map.1 statement
    obtain ⟨second, inSecond, rfl⟩ := List.mem_map.1 inLines
    -- The line is part of the place.
    have numbers : UInt32.ofNat second.2 = .ofNat first.2 := by
      rw [← Token.line_of_mem_ofLine inLine, ← Token.line_of_mem_ofLine member, same]
    cases eq_of_ofNat_eq short inSecond inFirst numbers
    exact Token.eq_of_pairwise_before ordered inLine member same
  · exact .inr ends

end Definition

/-- The fault is why the line cannot be read, and it is about the token. Only a line end has no text
to speak of. -/
def Fault.IsAbout (line : List Token) (token : Token) (fault : Fault) : Prop :=
  readLine line = .error fault ∧
    match fault with
    | .unknownCharacter _ character => token.kind = .unknown character
    | .unexpected _ _ found => token.text = found ∧ (found = "" ↔ token.kind = .lineEnd)

/-- The finding is about the token in the definition that the line is read to. A finding on a
parameter is about the parameter that it names in words, and any other finding is about the name that
the line begins with. -/
def Lint.Finding.IsAbout (line : List Token) (token : Token) (finding : Finding) : Prop :=
  ∃ definition name parameters,
    readLine line = .ok definition ∧ definition.name = finding.definition ∧
    Definition.Header line definition name parameters ∧ token.kind = .identifier ∧
    match finding.issue with
    | .parameterShadowsFunction parameter =>
      finding.code = "parameter_shadows_function" ∧
        finding.description = "parameter '" ++ token.text ++ "' has the same name as its function" ∧
        token ∈ parameters ∧ token.text = parameter
    | .duplicateParameter parameter =>
      finding.code = "duplicate_parameter" ∧
        finding.description = "parameter '" ++ token.text ++ "' is declared more than once" ∧
        token.text = parameter ∧ ∃ earlier, [earlier, token].Sublist parameters ∧
          earlier.text = parameter ∧ earlier.position.Before token.position
    | .duplicateDefinition | .outputWithParameters _ | .unresolvedCallee _ =>
      finding.code ∈ ["duplicate_definition", "output_with_parameters", "unresolved_callee"] ∧
        token = name ∧ token.text = finding.definition

def Diagnostic.IsAbout (line : List Token) (token : Token) : Diagnostic → Prop
  | .fault cause => cause.IsAbout line token
  | .finding doubt => doubt.IsAbout line token

theorem Fault.exists_isAbout {source : String} {line : List Token}
    (statement : line ∈ statements (Token.ofText source)) {fault : Fault}
    (read : readLine line = .error fault) :
    ∃ token ∈ line, token.position = fault.position ∧ fault.IsAbout line token := by
  have scanned := Definition.isScanned_of_mem statement
  obtain ⟨token, member, names⟩ :=
    Definition.exists_mem_of_readLine (Definition.isClosed_of_mem statement) read
  refine ⟨token, member, names.position_eq, read, ?_⟩
  cases fault with
  | unknownCharacter position character => exact names.2
  | unexpected position expected found =>
    refine ⟨names.2, ?_⟩
    rw [← names.2]
    exact scanned.text_eq_empty_iff member

namespace Lint.Finding

variable {line : List Token} {definition : Definition} {name : Token} {parameters : List Token}

theorem exists_isAbout_of_mem_checkParameters (read : readLine line = .ok definition)
    (header : Definition.Header line definition name parameters)
    (ordered : line.Pairwise fun first second => first.position.Before second.position)
    {finding : Finding} (member : finding ∈ checkParameters definition) :
    ∃ token ∈ line, token.position = finding.position ∧ finding.IsAbout line token := by
  obtain ⟨index, parameter, found, issue, issues, rfl⟩ := mem_checkParameters_iff.1 member
  obtain ⟨equals, rest, _, shape⟩ := header.shape
  have within : parameters.Sublist line := by
    rw [shape]
    exact (List.sublist_append_left _ _).cons _
  rw [header.parameters_eq, List.getElem?_map] at found
  obtain ⟨token, place, rfl⟩ := Option.map_eq_some_iff.1 found
  have inParameters := List.mem_of_getElem? place
  have position : definition.parameterPosition index = token.position := by
    simp [Definition.parameterPosition, header.parameterPositions_eq, place]
  refine ⟨token, within.mem inParameters, position.symm, definition, name, parameters, read, rfl,
    header, header.parametersNamed token inParameters, ?_⟩
  rcases mem_parameterIssues_iff.1 issues with ⟨_, rfl⟩ | ⟨inFront, rfl⟩
  · exact ⟨rfl, rfl, inParameters, rfl⟩
  · rw [header.parameters_eq, ← List.map_take] at inFront
    obtain ⟨earlier, inFront, same⟩ := List.mem_map.1 inFront
    have behind : token ∈ parameters.drop index := by
      refine List.mem_of_getElem? (i := 0) ?_
      rw [List.getElem?_drop, Nat.add_zero, place]
    have pair : [earlier, token].Sublist parameters := by
      rw [← List.take_append_drop index parameters]
      exact (List.singleton_sublist.2 inFront).append (List.singleton_sublist.2 behind)
    have before := ordered.sublist (pair.trans within)
    exact ⟨rfl, rfl, rfl, earlier, pair, same,
      (List.pairwise_cons.1 before).1 token List.mem_cons_self⟩

theorem exists_isAbout_findingAt (read : readLine line = .ok definition)
    (header : Definition.Header line definition name parameters) {issue : Issue}
    (other : issue.code ∈ ["duplicate_definition", "output_with_parameters", "unresolved_callee"]) :
    ∃ token ∈ line, token.position = definition.position ∧
      (findingAt definition definition.position issue).IsAbout line token := by
  have first : name ∈ line := by
    obtain ⟨equals, rest, _, shape⟩ := header.shape
    rw [shape]
    exact List.mem_cons_self
  refine ⟨name, first, header.position_eq.symm, definition, name, parameters, read, rfl, header,
    header.named, ?_⟩
  cases issue with
  | parameterShadowsFunction parameter => simp [Issue.code] at other
  | duplicateParameter parameter => simp [Issue.code] at other
  | _ => exact ⟨other, rfl, header.name_eq.symm⟩

theorem exists_isAbout_of_mem_checkOne (read : readLine line = .ok definition)
    (header : Definition.Header line definition name parameters)
    (ordered : line.Pairwise fun first second => first.position.Before second.position)
    {rules : Rules} {names earlier : List String} {finding : Finding}
    (member : finding ∈ checkOne rules names earlier definition) :
    ∃ token ∈ line, token.position = finding.position ∧ finding.IsAbout line token := by
  simp only [checkOne, List.mem_append] at member
  rcases member with ((onName | onParameter) | onOutput) | onCallee
  · obtain ⟨_, rfl⟩ := mem_checkName_iff.1 onName
    exact exists_isAbout_findingAt read header (by simp [Issue.code])
  · exact exists_isAbout_of_mem_checkParameters read header ordered onParameter
  · obtain ⟨_, rfl⟩ := mem_checkOutput_iff.1 onOutput
    exact exists_isAbout_findingAt read header (by simp [Issue.code])
  · obtain ⟨_, callee, _, _, rfl⟩ := mem_checkCallees_iff.1 onCallee
    exact exists_isAbout_findingAt read header (by simp [Issue.code])

end Lint.Finding

namespace Report

/-- In a text of fewer than 2 ^ 32 - 1 characters every diagnostic points at the token it talks about.
It stands where a token of its line stands, and it is about that token. No other token of the text
stands there but, at the end of the text, the input end. -/
theorem exists_token_of_mem_diagnostics {source : String} (short : source.length < UInt32.size - 1)
    (rules : Lint.Rules) {diagnostic : Diagnostic}
    (member : diagnostic ∈ (Stage.validator.report rules source).diagnostics) :
    ∃ line ∈ statements (Token.ofText source), ∃ token ∈ line,
      token.position = diagnostic.position ∧ diagnostic.IsAbout line token ∧
      token ∈ Token.ofText source ∧
      ∀ other ∈ Token.ofText source, other.position = diagnostic.position →
        other = token ∨ other.kind = .inputEnd := by
  have pointed : ∃ line ∈ statements (Token.ofText source), ∃ token ∈ line,
      token.position = diagnostic.position ∧ diagnostic.IsAbout line token := by
    rcases List.mem_append.1 member with ofFault | ofFinding
    · obtain ⟨fault, inFaults, rfl⟩ := List.mem_map.1 ofFault
      obtain ⟨line, statement, read⟩ := Definition.mem_faults_recover_iff.1 inFaults
      exact ⟨line, statement, Fault.exists_isAbout statement read⟩
    · obtain ⟨finding, inFindings, rfl⟩ := List.mem_map.1 ofFinding
      obtain ⟨front, definition, back, same, found⟩ := Lint.mem_checkFrom_iff.1 inFindings
      have recovered : definition ∈ (Definition.recover (Token.ofText source)).definitions := by
        rw [same]
        simp
      obtain ⟨line, statement, read⟩ := Definition.mem_recover_iff.1 recovered
      obtain ⟨name, parameters, header⟩ :=
        Definition.exists_header_of_readLine (Definition.spelled_of_mem statement) read
      exact ⟨line, statement, Lint.Finding.exists_isAbout_of_mem_checkOne read header
        (Definition.pairwise_before_of_mem short statement) found⟩
  obtain ⟨line, statement, token, inLine, place, about⟩ := pointed
  refine ⟨line, statement, token, inLine, place, about,
    Definition.mem_ofText_of_mem statement inLine, fun other inText same => ?_⟩
  exact Definition.eq_of_position_eq short statement inLine inText (same.trans place.symm)

theorem exists_token_of_two_diagnostics :
    let source := "g x\tx = 2 # x\nh = )"
    let refused : Fault := .unexpected ⟨2, 5⟩ .expression ")"
    let doubt : Lint.Finding := ⟨.duplicateParameter "x", "g", ⟨1, 5⟩⟩
    source.length < UInt32.size - 1 ∧
      (Stage.validator.report .standard source).diagnostics = [.fault refused, .finding doubt] ∧
      (∃ line, ∃ token ∈ Token.ofText source,
        token.position = ⟨2, 5⟩ ∧ refused.IsAbout line token) ∧
      ∃ line, ∃ token ∈ Token.ofText source, token.position = ⟨1, 5⟩ ∧ doubt.IsAbout line token := by
  intro source refused doubt
  have short : source.length < UInt32.size - 1 := by decide +kernel
  have all : (Stage.validator.report .standard source).diagnostics =
      [.fault refused, .finding doubt] := by decide +kernel
  obtain ⟨line, _, token, _, place, about, inText, _⟩ :=
    exists_token_of_mem_diagnostics short .standard (all ▸ List.mem_cons_self)
  obtain ⟨next, _, other, _, otherPlace, otherAbout, otherInText, _⟩ :=
    exists_token_of_mem_diagnostics short .standard
      (all ▸ List.mem_cons_of_mem _ List.mem_cons_self)
  exact ⟨short, all, ⟨line, token, inText, place, about⟩,
    ⟨next, other, otherInText, otherPlace, otherAbout⟩⟩

end Report

end ShaderDefs
