import Mathlib.Data.List.TakeWhile
import ShaderDefs.Proofs.Text.Numeral
import ShaderDefs.Token.Scan

/-! How the tokens of a source text are spelled. Scanning gives every token a text that its kind
allows, so a token made of text is never at odds with itself. -/

set_option autoImplicit false

namespace ShaderDefs.Token

/-- The text of the token is one that its kind allows. -/
def Spelled (token : Token) : Prop :=
  match token.kind with
  | .identifier => Text.IsName token.text
  | .integer => Text.IsDigits token.text.toList
  | .operator operator => token.text = operator.symbol.toString
  | .equals => token.text = "="
  | .opening => token.text = "("
  | .closing => token.text = ")"
  | .lineEnd | .inputEnd => token.text = ""
  | .unknown character => token.text = character.toString

variable {first : Char} {rest : List Char}

theorem isName_of_isNameStart (start : isNameStart first) :
    Text.IsName (.ofList (first :: rest.takeWhile isNamePart)) := by
  refine ⟨first, rest.takeWhile isNamePart, String.toList_ofList, ?_, ?_⟩
  · simpa [isNameStart] using start
  · intro character member
    simpa [isNamePart] using List.mem_takeWhile_imp member

theorem isDigits_of_isDigit (digit : first.isDigit) :
    Text.IsDigits (first :: rest.takeWhile Char.isDigit) := by
  refine ⟨List.cons_ne_nil _ _, ?_⟩
  intro character member
  rcases List.mem_cons.1 member with rfl | member
  · exact digit
  · exact List.mem_takeWhile_imp member

theorem ofList_takeWhile_goesOn {kind : Kind} (name : kind ≠ .identifier) (integer : kind ≠ .integer) :
    String.ofList (first :: rest.takeWhile kind.goesOn) = first.toString := by
  have stops : rest.takeWhile kind.goesOn = [] := by
    cases rest with
    | nil => rfl
    | cons next rest => cases kind <;> simp_all [Kind.goesOn]
  rw [stops]
  exact String.singleton_eq_ofList.symm

theorem spelled_ofFirst (first : Char) (rest : List Char) (position : Position) :
    Spelled ⟨Kind.ofFirst first, .ofList (first :: rest.takeWhile (Kind.ofFirst first).goesOn),
      position⟩ := by
  unfold Kind.ofFirst
  split
  next start => exact isName_of_isNameStart start
  split
  next digit =>
    have digits : Text.IsDigits (first :: rest.takeWhile Char.isDigit) := isDigits_of_isDigit digit
    rwa [← @String.toList_ofList (first :: rest.takeWhile Char.isDigit)] at digits
  split
  next same =>
    subst same
    exact ofList_takeWhile_goesOn nofun nofun
  split
  next same =>
    subst same
    exact ofList_takeWhile_goesOn nofun nofun
  split
  next same =>
    subst same
    exact ofList_takeWhile_goesOn nofun nofun
  split
  next operator isOperator =>
    rw [← Operator.symbol_of_ofSymbol? isOperator]
    exact ofList_takeWhile_goesOn nofun nofun
  next => exact ofList_takeWhile_goesOn nofun nofun

theorem spelled_of_mem_scanLine {line column : Nat} {characters : List Char} {token : Token}
    (member : token ∈ scanLine line column characters) : token.Spelled := by
  fun_induction scanLine line column characters with
  | case1 => cases member
  | case2 _ _ _ _ ih => exact ih member
  | case3 => cases member
  | case4 column first rest _ _ kind more ih =>
    rcases List.mem_cons.1 member with rfl | member
    · exact spelled_ofFirst first rest _
    · exact ih member

end ShaderDefs.Token
