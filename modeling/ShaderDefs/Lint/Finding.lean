import ShaderDefs.Position

/-! Findings: what is doubtful about a definition that could be read. -/

set_option autoImplicit false

namespace ShaderDefs.Lint

inductive Issue where
  /-- An earlier definition has the same name. -/
  | duplicateDefinition
  /-- A parameter has the name of the definition. -/
  | parameterShadowsFunction (parameter : String)
  /-- An earlier parameter of the definition has the same name. -/
  | duplicateParameter (parameter : String)
  /-- An output of the shader takes parameters. -/
  | outputWithParameters (count : Nat)
  /-- An applied name that nothing defines. -/
  | unresolvedCallee (callee : String)
  deriving DecidableEq

namespace Issue

def code : Issue → String
  | .duplicateDefinition => "duplicate_definition"
  | .parameterShadowsFunction _ => "parameter_shadows_function"
  | .duplicateParameter _ => "duplicate_parameter"
  | .outputWithParameters _ => "output_with_parameters"
  | .unresolvedCallee _ => "unresolved_callee"

def describe (definition : String) : Issue → String
  | .duplicateDefinition => "'" ++ definition ++ "' is already defined"
  | .parameterShadowsFunction parameter =>
    "parameter '" ++ parameter ++ "' has the same name as its function"
  | .duplicateParameter parameter => "parameter '" ++ parameter ++ "' is declared more than once"
  | .outputWithParameters count =>
    "'" ++ definition ++ "' is a shader output and must not take arguments (declares " ++
      toString count ++ ")"
  | .unresolvedCallee callee => "'" ++ callee ++ "' is applied but never defined"

end Issue

structure Finding where
  issue : Issue
  /-- The name of the definition that the finding is about. -/
  definition : String
  position : Position
  deriving DecidableEq

namespace Finding

def code (finding : Finding) : String := finding.issue.code

def description (finding : Finding) : String := finding.issue.describe finding.definition

def messageOf (position : Position) (code definition description : String) : String :=
  "line " ++ position.text ++ ": [" ++ code ++ "] in '" ++ definition ++ "': " ++ description

def message (finding : Finding) : String :=
  messageOf finding.position finding.code finding.definition finding.description

end Finding

end ShaderDefs.Lint
