import ShaderDefs.Canonical.Atom
import ShaderDefs.Fault

/-! Reading canonical text. The reader works on atoms, so all its faults stand at the start. -/

set_option autoImplicit false

namespace ShaderDefs.Canonical

def stop (expected : Expectation) (found : String) : Fault := .unexpected .start expected found

def isIntegerWord (characters : List Char) : Bool :=
  let digits := if characters.head? = some '-' then characters.tail else characters
  !digits.isEmpty && digits.all Char.isDigit

def isNameWord : List Char → Bool
  | [] => false
  | first :: rest =>
    (first.isAlpha || first = '_') && rest.all fun character => character.isAlphanum || character = '_'

def readWord (text : String) : Except Fault Expr :=
  if isIntegerWord text.toList then
    match Text.Integer.read? text with
    | some value => .ok (.literal value)
    | none => .error (stop .fittingInteger text)
  else if isNameWord text.toList then .ok (.identifier text)
  else .error (stop .leaf text)

def operatorWord? (text : String) : Option Operator :=
  match text.toList with
  | [symbol] => Operator.ofSymbol? symbol
  | _ => none

/-- The arguments up to a closing parenthesis or the end, after those already taken, which are in
reverse. -/
def arguments (item : Reader Atom Expr) {bound : Nat} (taken : List Expr) (input : List Atom)
    (within : input.length < bound) : Except Fault (Reading Atom (List Expr) bound) :=
  match input with
  | [] => .ok ⟨taken.reverse, [], within⟩
  | .closing :: rest => .ok ⟨taken.reverse, .closing :: rest, within⟩
  | first :: rest =>
    match item (first :: rest) with
    | .error fault => .error fault
    | .ok next => arguments item (next.value :: taken) next.rest (Nat.lt_trans next.shorter within)
termination_by input.length
decreasing_by exact next.shorter

def binary (item : Reader Atom Expr) (operator : Operator) : Reader Atom Expr := fun input =>
  match item input with
  | .error fault => .error fault
  | .ok left =>
    match item left.rest with
    | .error fault => .error fault
    | .ok right =>
      .ok ⟨.binary operator left.value right.value, right.rest,
        Nat.lt_trans right.shorter left.shorter⟩

def application (item : Reader Atom Expr) : Reader Atom Expr := fun input =>
  match item input with
  | .error fault => .error fault
  | .ok callee =>
    match arguments item [] callee.rest callee.shorter with
    | .error fault => .error fault
    | .ok read =>
      if read.value.isEmpty then .error (stop .argument ")")
      else .ok ⟨.application callee.value read.value, read.rest, read.shorter⟩

/-- What follows an opening parenthesis. An operator takes exactly two operands. -/
def items (item : Reader Atom Expr) : Reader Atom Expr
  | .word text :: rest =>
    match operatorWord? text with
    | some operator =>
      match binary item operator rest with
      | .error fault => .error fault
      | .ok read => .ok ⟨read.value, read.rest, Nat.lt_succ_of_lt read.shorter⟩
    | none => application item (.word text :: rest)
  | input => application item input

/-- An expression with room for so many nested lists. -/
def expression : Nat → Reader Atom Expr
  | _, [] => .error (stop .expression "")
  | _, .closing :: _ => .error (stop .expression ")")
  | _, .word text :: rest =>
    match readWord text with
    | .error fault => .error fault
    | .ok leaf => .ok ⟨leaf, rest, by simp⟩
  | 0, .opening :: _ => .error (stop .shallowExpression "(")
  | room + 1, .opening :: rest =>
    match items (expression room) rest with
    | .error fault => .error fault
    | .ok read =>
      match h : read.rest with
      | .closing :: after => .ok ⟨read.value, after, by
          have := read.shorter
          simp only [h, List.length_cons] at this ⊢
          omega⟩
      | [] => .error (stop (.token .closing) "")
      | other :: _ => .error (stop (.token .closing) other.text)

def readAtoms (atoms : List Atom) : Except Fault Expr :=
  match expression maxDepth atoms with
  | .error fault => .error fault
  | .ok read =>
    match read.rest with
    | [] => .ok read.value
    | extra :: _ => .error (stop (.token .inputEnd) extra.text)

def read (text : String) : Except Fault Expr := readAtoms (split text.toList)

end ShaderDefs.Canonical
