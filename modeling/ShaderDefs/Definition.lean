import ShaderDefs.Expr.Basic
import ShaderDefs.Position

/-! Definitions: a name, the parameters it takes, and the expression it stands for. -/

set_option autoImplicit false

namespace ShaderDefs

structure Definition where
  name : String
  /-- Empty for a plain value. -/
  parameters : List String
  /-- The places of the parameters, in their order. -/
  parameterPositions : List Position
  body : Expr
  /-- The place of the name. -/
  position : Position
  deriving DecidableEq

namespace Definition

def isFunction (definition : Definition) : Bool := !definition.parameters.isEmpty

def arity (definition : Definition) : Nat := definition.parameters.length

/-- The place of a parameter, or of the name where the parameter has none. -/
def parameterPosition (definition : Definition) (index : Nat) : Position :=
  definition.parameterPositions[index]?.getD definition.position

end Definition

end ShaderDefs
