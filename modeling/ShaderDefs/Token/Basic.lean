import ShaderDefs.Operator
import ShaderDefs.Position

/-! Tokens: what a source text is made of once blanks and comments are gone. -/

set_option autoImplicit false

namespace ShaderDefs

inductive Token.Kind where
  | identifier
  | integer
  | operator (operator : Operator)
  | equals
  | opening
  | closing
  /-- The end of a line that holds at least one other token. -/
  | lineEnd
  /-- The end of the whole input. -/
  | inputEnd
  | unknown (character : Char)
  deriving DecidableEq

/-- The kind of a token decides where it may stand, and its text what it says there. -/
structure Token where
  kind : Token.Kind
  text : String
  position : Position
  deriving DecidableEq

namespace Token.Kind

def describe : Kind → String
  | .identifier => "identifier"
  | .integer => "integer"
  | .operator _ => "operator"
  | .equals => "'='"
  | .opening => "'('"
  | .closing => "')'"
  | .lineEnd => "end of line"
  | .inputEnd => "end of input"
  | .unknown _ => "unknown character"

def startsAtom : Kind → Bool
  | .identifier | .integer | .opening => true
  | _ => false

def isEnd : Kind → Bool
  | .lineEnd | .inputEnd => true
  | _ => false

theorem isEnd_iff (kind : Kind) : kind.isEnd ↔ kind = .lineEnd ∨ kind = .inputEnd := by
  cases kind <;> simp [isEnd]

end Token.Kind

namespace Token

/-- The tokens of a sequence line by line, each line with the line end that closes it. -/
def groups (tokens : List Token) : List (List Token) :=
  tokens.splitBy fun token _ => token.kind ≠ .lineEnd

def lineText (tokens : List Token) : String :=
  " ".intercalate ((tokens.filter (!·.kind.isEnd)).map (·.text))

end Token

end ShaderDefs
