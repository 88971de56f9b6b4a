import ShaderDefs.Token.Basic

/-! Faults: why a text or a sequence of tokens cannot be read. A reader ends in one, or takes a value from
the front of a sequence of symbols. It has used at least one symbol then, which its result carries as a
proof, so repeating a reader ends. -/

set_option autoImplicit false

namespace ShaderDefs

/-- The deepest tree, and the deepest nesting of parentheses, that is read. -/
def maxDepth : Nat := 256

inductive Expectation where
  | token (kind : Token.Kind)
  | expression
  | argument
  /-- A leaf of canonical text. -/
  | leaf
  /-- An integer that fits a signed 64-bit word. -/
  | fittingInteger
  /-- An expression within the depth limit. -/
  | shallowExpression
  deriving DecidableEq

def Expectation.phrase : Expectation → String
  | .token kind => kind.describe
  | .expression => "expression"
  | .argument => "application argument"
  | .leaf => "identifier or integer"
  | .fittingInteger => "integer literal within 64-bit range"
  | .shallowExpression => "expression nested at most " ++ toString maxDepth ++ " deep"

theorem Expectation.phrase_shallowExpression :
    shallowExpression.phrase = "expression nested at most 256 deep" := by decide +kernel

inductive Fault where
  /-- A character outside the language. -/
  | unknownCharacter (position : Position) (character : Char)
  /-- Something else than what had to be there. The text found is empty at an end. -/
  | unexpected (position : Position) (expected : Expectation) (found : String)
  deriving DecidableEq

namespace Fault

def position : Fault → Position
  | .unknownCharacter position _ => position
  | .unexpected position _ _ => position

def unknownCharacterMessage (position : Position) (character : Char) : String :=
  "line " ++ position.text ++ ": unexpected character '" ++ character.toString ++ "'"

def unexpectedMessage (position : Position) (expected found : String) : String :=
  "line " ++ position.text ++ ": expecting " ++ expected ++ ", found '" ++ found ++ "'"

def message : Fault → String
  | .unknownCharacter position character => unknownCharacterMessage position character
  | .unexpected position expected found => unexpectedMessage position expected.phrase found

def ofToken? (token : Token) : Option Fault :=
  match token.kind with
  | .unknown character => some (.unknownCharacter token.position character)
  | _ => none

def unknownCharacters (tokens : List Token) : List Fault := tokens.filterMap ofToken?

end Fault

/-- A value and the symbols after it, of which there are fewer than the bound. -/
structure Reading (Symbol Value : Type) (bound : Nat) where
  value : Value
  rest : List Symbol
  shorter : rest.length < bound

abbrev Reader (Symbol Value : Type) : Type :=
  (input : List Symbol) → Except Fault (Reading Symbol Value input.length)

end ShaderDefs
