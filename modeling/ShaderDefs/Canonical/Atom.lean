import ShaderDefs.Expr.Basic
import ShaderDefs.Text.Ranges

/-! Canonical text, the prefix form of expressions. It is a sequence of atoms: parentheses and words.
A layout says where blanks stand between atoms, and splitting a text into atoms forgets the
layout. -/

set_option autoImplicit false

namespace ShaderDefs

namespace Canonical

inductive Atom where
  | opening
  | closing
  | word (text : String)
  deriving DecidableEq

def Atom.text : Atom → String
  | .opening => "("
  | .closing => ")"
  | .word text => text

def isWordPart (character : Char) : Bool :=
  !(Text.isBlank character || character = '(' || character = ')')

/-- The atoms of a text. A parenthesis is an atom even without white space around it. -/
def split : List Char → List Atom
  | [] => []
  | first :: rest =>
    if Text.isBlank first then split rest
    else if first = '(' then .opening :: split rest
    else if first = ')' then .closing :: split rest
    else .word (.ofList (first :: rest.takeWhile isWordPart)) :: split (rest.dropWhile isWordPart)
termination_by characters => characters.length
decreasing_by
  · simp
  · simp
  · simp
  · exact Nat.lt_succ_of_le (List.dropWhile_sublist _).length_le

end Canonical

open Canonical (Atom)

namespace Expr

mutual

def atoms : Expr → List Atom
  | .literal value => [.word (Text.Integer.write value)]
  | .identifier name => [.word name]
  | .binary operator left right =>
    .opening :: .word operator.symbol.toString :: (left.atoms ++ right.atoms ++ [.closing])
  | .application callee arguments =>
    .opening :: (callee.atoms ++ atomsOfAll arguments ++ [.closing])

def atomsOfAll : List Expr → List Atom
  | [] => []
  | expr :: rest => expr.atoms ++ atomsOfAll rest

end

end Expr

end ShaderDefs
