import ShaderDefs.Definition
import ShaderDefs.Lint.Finding
import ShaderDefs.Lint.Rules

/-! The checks on definitions. A finding never removes a definition, and a name may be applied before
it is defined. -/

set_option autoImplicit false

namespace ShaderDefs.Lint

variable (rules : Rules)

def findingAt (definition : Definition) (position : Position) (issue : Issue) : Finding :=
  ⟨issue, definition.name, position⟩

def checkName (earlier : List String) (definition : Definition) : List Finding :=
  if earlier.contains definition.name then
    [findingAt definition definition.position .duplicateDefinition]
  else []

def parameterIssues (definition : Definition) (parameter : String) (index : Nat) : List Issue :=
  (if parameter = definition.name then [.parameterShadowsFunction parameter] else []) ++
    (if (definition.parameters.take index).contains parameter then
      [.duplicateParameter parameter] else [])

def checkParameters (definition : Definition) : List Finding :=
  definition.parameters.zipIdx.flatMap fun indexed =>
    (parameterIssues definition indexed.1 indexed.2).map
      (findingAt definition (definition.parameterPosition indexed.2))

def checkOutput (definition : Definition) : List Finding :=
  if definition.isFunction && rules.isOutput definition.name then
    [findingAt definition definition.position (.outputWithParameters definition.arity)]
  else []

def isResolved (names : List String) (definition : Definition) (callee : String) : Bool :=
  names.contains callee || definition.parameters.contains callee || rules.isBuiltin callee

def callees (definition : Definition) : List String :=
  definition.body.nodes.filterMap Expr.calleeName?

def checkCallees (names : List String) (definition : Definition) : List Finding :=
  if rules.warnUnresolved then
    ((callees definition).filter (!isResolved rules names definition ·)).map fun callee =>
      findingAt definition definition.position (.unresolvedCallee callee)
  else []

/-- All findings of one definition, given the names of all definitions and of the earlier ones. -/
def checkOne (names earlier : List String) (definition : Definition) : List Finding :=
  checkName earlier definition ++ checkParameters definition ++ checkOutput rules definition ++
    checkCallees rules names definition

def checkFrom (names earlier : List String) : List Definition → List Finding
  | [] => []
  | definition :: rest =>
    checkOne rules names earlier definition ++ checkFrom names (definition.name :: earlier) rest

def check (definitions : List Definition) : List Finding :=
  checkFrom rules (definitions.map (·.name)) [] definitions

theorem checkFrom_append (names earlier : List String) (first second : List Definition) :
    checkFrom rules names earlier (first ++ second) =
      checkFrom rules names earlier first ++
        checkFrom rules names ((first.map (·.name)).reverse ++ earlier) second := by
  induction first generalizing earlier with
  | nil => rfl
  | cons definition rest ih => simp [checkFrom, ih]

end ShaderDefs.Lint
