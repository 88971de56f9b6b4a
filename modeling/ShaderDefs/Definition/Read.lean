import ShaderDefs.Definition
import ShaderDefs.Infix.Read
import ShaderDefs.Token.Scan

/-! Reading definitions, one from each line. A line that cannot be read says why and leaves the other
lines alone. -/

set_option autoImplicit false

namespace ShaderDefs.Definition

/-- The lines that hold a token other than an end. -/
def statements (tokens : List Token) : List (List Token) :=
  (Token.groups tokens).filter (·.any (!·.kind.isEnd))

def ofTokens (finish : Position) (line : List Token) : Except Fault Definition :=
  match Infix.expect finish (.identifier) line with
  | .error fault => .error fault
  | .ok name =>
    let parameters := name.rest.takeWhile fun token => token.kind = .identifier
    match Infix.expect finish .equals
        (name.rest.dropWhile fun token => token.kind = .identifier) with
    | .error fault => .error fault
    | .ok equals =>
      match Infix.expression finish maxDepth equals.rest with
      | .error fault => .error fault
      | .ok body =>
        match Infix.expectEnd finish .lineEnd body.rest with
        | .error fault => .error fault
        | .ok () => .ok {
            name := name.value.text
            parameters := parameters.map (·.text)
            parameterPositions := parameters.map (·.position)
            body := body.value
            position := name.value.position }

/-- One line as a definition. A character outside the language is reported first. -/
def readLine (line : List Token) : Except Fault Definition :=
  match line.findSome? Fault.ofToken? with
  | some fault => .error fault
  | none => ofTokens (Infix.finishOf line) line

def readAll (tokens : List Token) : Except Fault (List Definition) :=
  (statements tokens).mapM readLine

/-- What reading every line yields: the definitions of the lines that can be read, and a fault for
each other line. -/
structure Recovered where
  definitions : List Definition
  faults : List Fault
  deriving DecidableEq

def Recovered.ofResults (results : List (Except Fault Definition)) : Recovered where
  definitions := results.filterMap fun
    | .ok definition => some definition
    | .error _ => none
  faults := results.filterMap fun
    | .ok _ => none
    | .error fault => some fault

def Recovered.isClean (recovered : Recovered) : Bool := recovered.faults.isEmpty

def recover (tokens : List Token) : Recovered :=
  .ofResults ((statements tokens).map readLine)

end ShaderDefs.Definition
