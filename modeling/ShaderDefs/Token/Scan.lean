import ShaderDefs.Token.Basic

/-! From source text to tokens. Every line is scanned on its own. A character outside the language
becomes a token too, so scanning never fails. -/

set_option autoImplicit false

namespace ShaderDefs

/-- The pieces of a text between its line feeds. A text that ends in a line feed has an empty last
line, so there is always a last line. -/
def Text.lines (text : String) : List (List Char) := text.toList.splitOn '\n'

namespace Token

def isGap (character : Char) : Bool :=
  character = ' ' || character = '\t' || character = '\r'

def isComment (character : Char) : Bool := character = '#'

def isNameStart (character : Char) : Bool := character.isAlpha || character = '_'

def isNamePart (character : Char) : Bool := character.isAlphanum || character = '_'

def Kind.ofFirst (character : Char) : Kind :=
  if isNameStart character then .identifier
  else if character.isDigit then .integer
  else if character = '=' then .equals
  else if character = '(' then .opening
  else if character = ')' then .closing
  else match Operator.ofSymbol? character with
    | some symbol => .operator symbol
    | none => .unknown character

def Kind.goesOn : Kind → Char → Bool
  | .identifier, character => isNamePart character
  | .integer, character => character.isDigit
  | _, _ => false

/-- The tokens of the rest of a line, the next character being at the given place. Each token is as
long as it can be. -/
def scanLine (line column : Nat) : List Char → List Token
  | [] => []
  | first :: rest =>
    if isGap first then scanLine line (column + 1) rest
    else if isComment first then []
    else
      let kind := Kind.ofFirst first
      let more := rest.takeWhile kind.goesOn
      ⟨kind, .ofList (first :: more), .ofNat line column⟩ ::
        scanLine line (column + 1 + more.length) (rest.dropWhile kind.goesOn)
termination_by characters => characters.length
decreasing_by
  · simp
  · exact Nat.lt_succ_of_le (List.dropWhile_sublist _).length_le

def closeLine (line : Nat) (characters : List Char) : List Token → List Token
  | [] => []
  | tokens => tokens ++ [⟨.lineEnd, "", .ofNat line (characters.length + 1)⟩]

def ofLine (line : Nat) (characters : List Char) : List Token :=
  closeLine line characters (scanLine line 1 characters)

def closeText (lines : List (List Char)) : List Token → List Token
  | [] => []
  | tokens =>
    tokens ++ [⟨.inputEnd, "", .ofNat lines.length ((lines.getLast?.getD []).length + 1)⟩]

def ofText (source : String) : List Token :=
  let lines := Text.lines source
  closeText lines ((lines.zipIdx 1).flatMap fun numbered => ofLine numbered.2 numbered.1)

theorem Kind.isEnd_ofFirst (character : Char) : (Kind.ofFirst character).isEnd = false := by
  unfold ofFirst
  repeat' split
  all_goals rfl

theorem isEnd_of_mem_scanLine {line column : Nat} {characters : List Char} {token : Token}
    (member : token ∈ scanLine line column characters) : token.kind.isEnd = false := by
  fun_induction scanLine line column characters with
  | case1 => simp at member
  | case2 _ _ _ _ ih => exact ih member
  | case3 => simp at member
  | case4 column first rest _ _ kind more ih =>
    rcases List.mem_cons.1 member with rfl | member
    · exact Kind.isEnd_ofFirst first
    · exact ih member

theorem ofLine_eq_append {number : Nat} {characters : List Char}
    (some : scanLine number 1 characters ≠ []) :
    ofLine number characters = scanLine number 1 characters ++
      [⟨.lineEnd, "", .ofNat number (characters.length + 1)⟩] := by
  rw [ofLine, closeLine]
  exact some

theorem scanLine_ne_nil_of_ofLine {number : Nat} {characters : List Char}
    (some : ofLine number characters ≠ []) : scanLine number 1 characters ≠ [] := by
  intro none
  rw [ofLine, none] at some
  exact some rfl

theorem mem_or_eq_of_mem_ofLine {number : Nat} {characters : List Char} {token : Token}
    (member : token ∈ ofLine number characters) :
    token ∈ scanLine number 1 characters ∨
      token = ⟨.lineEnd, "", .ofNat number (characters.length + 1)⟩ := by
  have some := scanLine_ne_nil_of_ofLine (List.ne_nil_of_mem member)
  rw [ofLine_eq_append some, List.mem_append, List.mem_singleton] at member
  exact member

end Token

end ShaderDefs
