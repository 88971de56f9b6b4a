import ShaderDefs.Stage

/-! A session gathers definitions from several texts and validates them together under rules that can
change in between. -/

set_option autoImplicit false

namespace ShaderDefs

structure Session where
  rules : Lint.Rules
  definitions : List Definition
  /-- The outcome of the last validation; later changes leave it as it is. -/
  last : Validation

namespace Session

def empty : Session := ⟨.standard, [], .empty⟩

def withRules (session : Session) (change : Lint.Rules → Lint.Rules) : Session :=
  { session with rules := change session.rules }

def load (session : Session) (tokens : List Token) : Session × Definition.Recovered :=
  let recovered := Definition.recover tokens
  ({ session with definitions := session.definitions ++ recovered.definitions }, recovered)

def loadStrict (session : Session) (tokens : List Token) :
    Except Fault (Session × List Definition) :=
  (Definition.readAll tokens).map fun added =>
    ({ session with definitions := session.definitions ++ added }, added)

def remove (session : Session) (index : Nat) : Session × Option Definition :=
  ({ session with definitions := session.definitions.eraseIdx index }, session.definitions[index]?)

def reverse (session : Session) : Session :=
  { session with definitions := session.definitions.reverse }

def clear (session : Session) : Session := { session with definitions := [] }

def validateWith (session : Session) (rules : Lint.Rules) : Session :=
  { session with last := .ofDefinitions rules session.definitions }

def validate (session : Session) : Session := session.validateWith session.rules

def validateStandard (session : Session) : Session := session.validateWith .standard

def get? (session : Session) (name : String) : Option Signature := session.last.program.get? name

def print (session : Session) : String := String.join (session.definitions.map (·.print))

end Session

end ShaderDefs
