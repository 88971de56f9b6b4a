import ShaderDefs.Diagnostic
import ShaderDefs.Validation

/-! The stages at which a source text can be looked at, and the report that each gives. Lines with
faults are left out of a report; the others are in it. -/

set_option autoImplicit false

namespace ShaderDefs

structure Report where
  text : String
  diagnostics : List Diagnostic
  /-- Only the last stage has a program. -/
  program : Option Program

namespace Report

def hasErrors (report : Report) : Bool := report.diagnostics.any (·.isFault)

def warningCount (report : Report) : Nat := report.diagnostics.countP (!·.isFault)

def rendered (report : Report) (path source : String) : List String :=
  let lines := Text.shownLines source
  report.diagnostics.map (·.formatAmong path lines)

theorem rendered_eq_map_format (report : Report) (path source : String) :
    report.rendered path source = report.diagnostics.map (·.format path source) := rfl

def tokenLines (source : String) : Report :=
  let tokens := Token.ofText source
  let lines := ((Token.groups tokens).map Token.lineText).filter (!·.isEmpty)
  { text := String.join (lines.map (· ++ "\n"))
    diagnostics := (Fault.unknownCharacters tokens).map .fault
    program := none }

def definitionLines (source : String) : Report :=
  let recovered := Definition.recover (Token.ofText source)
  { text := String.join (recovered.definitions.map (·.print))
    diagnostics := recovered.faults.map .fault
    program := none }

def signatures (rules : Lint.Rules) (source : String) : Report :=
  let recovered := Definition.recover (Token.ofText source)
  let validation := Validation.ofDefinitions rules recovered.definitions
  { text := validation.program.describe
    diagnostics := recovered.faults.map .fault ++ validation.findings.map .finding
    program := some validation.program }

end Report

inductive Stage where
  | lexer
  | parser
  | validator
  deriving DecidableEq

namespace Stage

def all : List Stage := [.lexer, .parser, .validator]

def name : Stage → String
  | .lexer => "lexer"
  | .parser => "parser"
  | .validator => "validator"

def ofName? (name : String) : Option Stage := all.find? (·.name == name)

def report (rules : Lint.Rules) (source : String) : Stage → Report
  | .lexer => .tokenLines source
  | .parser => .definitionLines source
  | .validator => .signatures rules source

@[simp] theorem ofName?_name (stage : Stage) : ofName? stage.name = some stage := by
  cases stage <;> rfl

end Stage

end ShaderDefs
