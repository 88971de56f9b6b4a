import ShaderDefs.Fault
import ShaderDefs.Lint.Finding
import ShaderDefs.Token.Scan

/-! Diagnostics: faults and findings as they are shown to the writer of a source text. -/

set_option autoImplicit false

namespace ShaderDefs

inductive Severity where
  | error
  | warning
  deriving DecidableEq

def Severity.label : Severity → String
  | .error => "error"
  | .warning => "warning"

inductive Diagnostic where
  | fault (cause : Fault)
  | finding (doubt : Lint.Finding)
  deriving DecidableEq

namespace Text

def dropReturn (line : List Char) : List Char :=
  if line.getLast? = some '\r' then line.dropLast else line

/-- The lines as they are shown. Only the last line has no line feed after it, so it keeps a carriage
return. -/
def shownLines (text : String) : List String :=
  let all := lines text
  ((all.dropLast.map dropReturn) ++ all.getLast?.toList).map String.ofList

end Text

namespace Diagnostic

def position : Diagnostic → Position
  | .fault cause => cause.position
  | .finding doubt => doubt.position

def severity : Diagnostic → Severity
  | .fault _ => .error
  | .finding _ => .warning

def message : Diagnostic → String
  | .fault cause => cause.message
  | .finding doubt => doubt.message

def isFault : Diagnostic → Bool
  | .fault _ => true
  | .finding _ => false

/-- A message with the line it is about and a caret below the column. Lines and columns before the
first count as the first, and past the last line there is an empty one. -/
def render (path : String) (lines : List String) (severity : Severity) (position : Position)
    (message : String) : String :=
  path ++ ": " ++ severity.label ++ ": " ++ message ++
    "\n  " ++ lines[position.line.toNat - 1]?.getD "" ++
    "\n  " ++ String.ofList (List.replicate (position.column.toNat - 1) ' ') ++ "^"

def formatAmong (path : String) (lines : List String) (diagnostic : Diagnostic) : String :=
  render path lines diagnostic.severity diagnostic.position diagnostic.message

def format (path source : String) (diagnostic : Diagnostic) : String :=
  diagnostic.formatAmong path (Text.shownLines source)

end Diagnostic

end ShaderDefs
