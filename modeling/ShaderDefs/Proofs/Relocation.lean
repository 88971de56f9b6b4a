import ShaderDefs.Stage

/-! Moving the things of a source text to other places. Nothing but the places changes. Texts say
nothing of them, and the checks on definitions only pass them on, so checking goes together with
moving in either order. -/

set_option autoImplicit false

namespace ShaderDefs

section

variable (move : Position → Position)

def Token.relocate (token : Token) : Token := { token with position := move token.position }

def Fault.relocate : Fault → Fault
  | .unknownCharacter position character => .unknownCharacter (move position) character
  | .unexpected position expected found => .unexpected (move position) expected found

def Definition.relocate (definition : Definition) : Definition :=
  { definition with
    parameterPositions := definition.parameterPositions.map move
    position := move definition.position }

def Lint.Finding.relocate (finding : Finding) : Finding :=
  { finding with position := move finding.position }

def Diagnostic.relocate : Diagnostic → Diagnostic
  | .fault cause => .fault (cause.relocate move)
  | .finding doubt => .finding (doubt.relocate move)

def Signature.relocate (signature : Signature) : Signature :=
  { signature with position := move signature.position }

def Program.relocate (program : Program) : Program :=
  ⟨program.functions.map (·.relocate move)⟩

def Report.relocate (report : Report) : Report where
  text := report.text
  diagnostics := report.diagnostics.map (·.relocate move)
  program := report.program.map (·.relocate move)

end

variable {move : Position → Position}

@[simp] theorem Token.kind_relocate (token : Token) : (token.relocate move).kind = token.kind := rfl

@[simp] theorem Token.text_relocate (token : Token) : (token.relocate move).text = token.text := rfl

theorem Token.lineText_relocate (tokens : List Token) :
    lineText (tokens.map (·.relocate move)) = lineText tokens := by
  simp [lineText, List.filter_map, Function.comp_def]

theorem Fault.position_relocate (fault : Fault) :
    (fault.relocate move).position = move fault.position := by
  cases fault <;> rfl

theorem Fault.ofToken?_relocate (token : Token) :
    ofToken? (token.relocate move) = (ofToken? token).map (·.relocate move) := by
  unfold ofToken?
  rw [Token.kind_relocate]
  cases token.kind <;> rfl

theorem Fault.unknownCharacters_relocate (tokens : List Token) :
    unknownCharacters (tokens.map (·.relocate move)) =
      (unknownCharacters tokens).map (·.relocate move) := by
  rw [unknownCharacters, unknownCharacters, List.filterMap_map, List.map_filterMap]
  congr 1
  funext token
  exact ofToken?_relocate token

theorem Diagnostic.position_relocate (diagnostic : Diagnostic) :
    (diagnostic.relocate move).position = move diagnostic.position := by
  cases diagnostic with
  | fault cause => exact cause.position_relocate
  | finding doubt => rfl

namespace Definition

@[simp] theorem name_relocate (definition : Definition) :
    (definition.relocate move).name = definition.name := rfl

@[simp] theorem parameters_relocate (definition : Definition) :
    (definition.relocate move).parameters = definition.parameters := rfl

theorem parameterPosition_relocate (definition : Definition) (index : Nat) :
    (definition.relocate move).parameterPosition index =
      move (definition.parameterPosition index) := by
  simp only [parameterPosition, relocate, List.getElem?_map]
  cases definition.parameterPositions[index]? <;> rfl

end Definition

theorem Program.ofDefinitions_relocate (definitions : List Definition) :
    ofDefinitions (definitions.map (·.relocate move)) = (ofDefinitions definitions).relocate move := by
  simp only [ofDefinitions, relocate, List.map_map]
  rfl

theorem Program.describe_relocate (program : Program) :
    (program.relocate move).describe = program.describe := by
  simp only [describe, relocate, List.map_map]
  rfl

namespace Lint

theorem checkName_relocate (earlier : List String) (definition : Definition) :
    checkName earlier (definition.relocate move) =
      (checkName earlier definition).map (·.relocate move) := by
  unfold checkName
  rw [Definition.name_relocate, apply_ite (List.map _)]
  rfl

theorem checkParameters_relocate (definition : Definition) :
    checkParameters (definition.relocate move) =
      (checkParameters definition).map (·.relocate move) := by
  unfold checkParameters
  rw [List.map_flatMap, Definition.parameters_relocate]
  congr 1
  funext indexed
  rw [Definition.parameterPosition_relocate, List.map_map]
  rfl

theorem checkOutput_relocate (rules : Rules) (definition : Definition) :
    checkOutput rules (definition.relocate move) =
      (checkOutput rules definition).map (·.relocate move) := by
  unfold checkOutput
  rw [apply_ite (List.map _)]
  rfl

theorem checkCallees_relocate (rules : Rules) (names : List String) (definition : Definition) :
    checkCallees rules names (definition.relocate move) =
      (checkCallees rules names definition).map (·.relocate move) := by
  unfold checkCallees
  rw [apply_ite (List.map _), List.map_map]
  rfl

theorem checkFrom_relocate (rules : Rules) (names earlier : List String)
    (definitions : List Definition) :
    checkFrom rules names earlier (definitions.map (·.relocate move)) =
      (checkFrom rules names earlier definitions).map (·.relocate move) := by
  induction definitions generalizing earlier with
  | nil => rfl
  | cons definition rest ih =>
    simp only [List.map_cons, checkFrom, checkOne, List.map_append, checkName_relocate,
      checkParameters_relocate, checkOutput_relocate, checkCallees_relocate,
      Definition.name_relocate, ih]

theorem check_relocate (rules : Rules) (definitions : List Definition) :
    check rules (definitions.map (·.relocate move)) =
      (check rules definitions).map (·.relocate move) := by
  unfold check
  rw [checkFrom_relocate, List.map_map]
  rfl

end Lint

end ShaderDefs
