import ShaderDefs.Definition.Read
import ShaderDefs.Lint.Check
import ShaderDefs.Program

/-! Validation: the program model of some definitions together with all findings about them. -/

set_option autoImplicit false

namespace ShaderDefs

structure Validation where
  program : Program
  findings : List Lint.Finding
  deriving DecidableEq

namespace Validation

def empty : Validation := ⟨⟨[]⟩, []⟩

def ofDefinitions (rules : Lint.Rules) (definitions : List Definition) : Validation where
  program := .ofDefinitions definitions
  findings := Lint.check rules definitions

def ofText (rules : Lint.Rules) (source : String) : Except Fault Validation :=
  (Definition.readAll (Token.ofText source)).map (ofDefinitions rules)

def isClean (validation : Validation) : Bool := validation.findings.isEmpty

def warningCount (validation : Validation) : Nat := validation.findings.length

def result (validation : Validation) : Except (Program × List Lint.Finding) Program :=
  if validation.findings.isEmpty then .ok validation.program
  else .error (validation.program, validation.findings)

end Validation

end ShaderDefs
