import ShaderDefs.Canonical.Layout
import ShaderDefs.Definition

/-! The program model: for each definition what a caller has to know, and its body as canonical
text. -/

set_option autoImplicit false

namespace ShaderDefs

structure Signature where
  name : String
  arguments : List String
  /-- The body in the compact layout. -/
  expression : String
  position : Position
  deriving DecidableEq

structure Program where
  functions : List Signature
  deriving DecidableEq

def Signature.ofDefinition (definition : Definition) : Signature where
  name := definition.name
  arguments := definition.parameters
  expression := definition.body.print .compact
  position := definition.position

def Signature.describe (signature : Signature) : String :=
  "Function: " ++ signature.name ++ "\n" ++
    (if signature.arguments.isEmpty then ""
      else "  Arguments: " ++ " ".intercalate signature.arguments ++ "\n") ++
    "  Expression: " ++ signature.expression ++ "\n"

namespace Program

def ofDefinitions (definitions : List Definition) : Program :=
  ⟨definitions.map .ofDefinition⟩

def get? (program : Program) (name : String) : Option Signature :=
  program.functions.find? (·.name == name)

def names (program : Program) : List String := program.functions.map (·.name)

def size (program : Program) : Nat := program.functions.length

def isEmpty (program : Program) : Bool := program.functions.isEmpty

def describe (program : Program) : String := String.join (program.functions.map (·.describe))

end Program

/-- A definition as a line of text in the spaced layout. The parameters stand in a list with the
name. -/
def Definition.print (definition : Definition) : String :=
  let head :=
    if definition.parameters.isEmpty then definition.name
    else "( " ++ " ".intercalate (definition.name :: definition.parameters) ++ " )"
  " ( = " ++ head ++ " " ++ definition.body.print .spaced ++ " )\n"

end ShaderDefs
