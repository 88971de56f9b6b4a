import ShaderDefs.Expr.Basic
import ShaderDefs.Fault

/-! Reading infix expressions. An expression is a chain of sums over chains of products over runs of
atoms. A run of one atom is that atom, and a longer run applies its first atom to the others.
Parentheses make an expression an atom. -/

set_option autoImplicit false

namespace ShaderDefs.Infix

/-- A fault at the first of the tokens that are left, or at the given end where none is left. -/
def stop (finish : Position) (expected : Expectation) : List Token → Fault
  | [] => .unexpected finish expected ""
  | token :: _ => .unexpected token.position expected token.text

/-- The place of the last token, for faults after it. -/
def finishOf (tokens : List Token) : Position :=
  (tokens.getLast?.map (·.position)).getD .start

def expect (finish : Position) (kind : Token.Kind) : Reader Token Token
  | [] => .error (stop finish (.token kind) [])
  | token :: rest =>
    if token.kind = kind then .ok ⟨token, rest, by simp⟩
    else .error (stop finish (.token kind) (token :: rest))

def limitDepth (finish : Position) {bound : Nat} (reading : Reading Token Expr bound) :
    Except Fault (Reading Token Expr bound) :=
  if reading.value.depth ≤ maxDepth then .ok reading
  else .error (stop finish .shallowExpression reading.rest)

/-- A name, an integer, or an expression in parentheses. What reads the expression inside is absent
where no further parentheses may open. -/
def atom (finish : Position) (inside : Option (Reader Token Expr)) : Reader Token Expr
  | [] => .error (stop finish .expression [])
  | token :: rest =>
    match token.kind with
    | .identifier => .ok ⟨.identifier token.text, rest, by simp⟩
    | .integer =>
      match Text.Integer.read? token.text with
      | some value => .ok ⟨.literal value, rest, by simp⟩
      | none => .error (.unexpected token.position .fittingInteger token.text)
    | .opening =>
      match inside with
      | none => .error (stop finish .shallowExpression rest)
      | some expression =>
        match expression rest with
        | .error fault => .error fault
        | .ok inner =>
          match expect finish .closing inner.rest with
          | .error fault => .error fault
          | .ok closed => .ok ⟨inner.value, closed.rest, by
              have := inner.shorter
              have := closed.shorter
              simp only [List.length_cons]
              omega⟩
    | _ => .error (stop finish .expression (token :: rest))

def startsAtom : List Token → Bool
  | [] => false
  | token :: _ => token.kind.startsAtom

/-- All atoms from here on, after those already taken, which are in reverse. -/
def run (atom : Reader Token Expr) {bound : Nat} (taken : List Expr) (input : List Token)
    (within : input.length < bound) : Except Fault (Reading Token (List Expr) bound) :=
  if startsAtom input then
    match atom input with
    | .error fault => .error fault
    | .ok next => run atom (next.value :: taken) next.rest (Nat.lt_trans next.shorter within)
  else .ok ⟨taken.reverse, input, within⟩
termination_by input.length
decreasing_by exact next.shorter

def application (finish : Position) (atom : Reader Token Expr) : Reader Token Expr := fun input =>
  match atom input with
  | .error fault => .error fault
  | .ok callee =>
    match run atom [] callee.rest callee.shorter with
    | .error fault => .error fault
    | .ok arguments =>
      if arguments.value.isEmpty then .ok callee
      else limitDepth finish
        ⟨.application callee.value arguments.value, arguments.rest, arguments.shorter⟩

def operatorAt? (precedence : Nat) (token : Token) : Option Operator :=
  match token.kind with
  | .operator operator => if operator.precedence = precedence then some operator else none
  | _ => none

/-- The rest of a chain of operators of one precedence, joined to the tree on their left. -/
def chain (finish : Position) (precedence : Nat) (operand : Reader Token Expr) {bound : Nat}
    (left : Expr) (input : List Token) (within : input.length < bound) :
    Except Fault (Reading Token Expr bound) :=
  match input with
  | [] => .ok ⟨left, [], within⟩
  | token :: rest =>
    match operatorAt? precedence token with
    | none => .ok ⟨left, token :: rest, within⟩
    | some operator =>
      match operand rest with
      | .error fault => .error fault
      | .ok right =>
        match limitDepth finish ⟨.binary operator left right.value, right.rest, right.shorter⟩ with
        | .error fault => .error fault
        | .ok joined =>
          chain finish precedence operand joined.value joined.rest (by
            have := joined.shorter
            simp only [List.length_cons] at within
            omega)
termination_by input.length
decreasing_by
  have := joined.shorter
  simp only [List.length_cons]
  omega

def level (finish : Position) (precedence : Nat) (operand : Reader Token Expr) :
    Reader Token Expr := fun input =>
  match operand input with
  | .error fault => .error fault
  | .ok first => chain finish precedence operand first.value first.rest first.shorter

def sum (finish : Position) (atom : Reader Token Expr) : Reader Token Expr :=
  level finish 1 (level finish 2 (application finish atom))

/-- An expression with room for so many nested parentheses. -/
def expression (finish : Position) : Nat → Reader Token Expr
  | 0 => sum finish (atom finish none)
  | room + 1 => sum finish (atom finish (some (expression finish room)))

def expectEnd (finish : Position) (kind : Token.Kind) : List Token → Except Fault Unit
  | [] => .ok ()
  | token :: rest =>
    if token.kind.isEnd then .ok () else .error (stop finish (.token kind) (token :: rest))

/-- A whole sequence of tokens as one expression. The expression itself stands on one line, and line
ends may follow it. A character outside the language is reported first, wherever it stands. -/
def read (tokens : List Token) : Except Fault Expr :=
  match tokens.findSome? Fault.ofToken? with
  | some fault => .error fault
  | none =>
    let finish := finishOf tokens
    match expression finish maxDepth tokens with
    | .error fault => .error fault
    | .ok reading =>
      match expectEnd finish .inputEnd
          (reading.rest.dropWhile fun token => token.kind = .lineEnd) with
      | .error fault => .error fault
      | .ok () => .ok reading.value

end ShaderDefs.Infix
