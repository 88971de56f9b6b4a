import ShaderDefs.Proofs.Infix.Refusal

/-! What readers of expressions expect. Where they fail, they had to find an operand, a closing
parenthesis, an integer that fits or a tree that is not too deep, and never an end. -/

set_option autoImplicit false

namespace ShaderDefs

def Fault.InExpression : Fault → Prop
  | .unknownCharacter _ _ => True
  | .unexpected _ expected _ =>
    expected ∈ [.expression, .token .closing, .fittingInteger, .shallowExpression]

theorem Fault.inExpression_of_findSome? {tokens : List Token} {fault : Fault}
    (found : tokens.findSome? ofToken? = some fault) : fault.InExpression := by
  obtain ⟨token, _, made⟩ := List.exists_of_findSome?_eq_some found
  unfold ofToken? at made
  split at made
  next => cases made; trivial
  next => cases made

namespace Infix

def WantsParts {Value : Type} (result : Except Fault Value) : Prop :=
  ∀ fault, result = .error fault → fault.InExpression

theorem WantsParts.ok {Value : Type} (value : Value) : WantsParts (.ok value) := nofun

theorem WantsParts.error {Value : Type} {fault : Fault} (inner : fault.InExpression) :
    WantsParts (.error fault : Except Fault Value) := by
  rintro _ ⟨⟩
  exact inner

variable {finish : Position} {bound : Nat} {input : List Token}

theorem inExpression_stop {expected : Expectation}
    (part : expected ∈ [.expression, .token .closing, .fittingInteger, .shallowExpression])
    (rest : List Token) : (stop finish expected rest).InExpression := by
  cases rest with
  | nil => exact part
  | cons token rest => exact part

theorem wantsParts_limitDepth (reading : Reading Token Expr bound) :
    WantsParts (limitDepth finish reading) := by
  unfold limitDepth
  split
  next => exact .ok _
  next => exact .error (inExpression_stop (by simp) _)

theorem wantsParts_expect_closing : WantsParts (expect finish .closing input) := by
  intro fault read
  obtain ⟨rfl, _⟩ := expect_eq_error read
  exact inExpression_stop (by simp) _

theorem expression_eq_error (none : startsAtom input = false) (room : Nat) :
    expression finish room input = .error (stop finish .expression input) := by
  have atoms : ∀ inside, atom finish inside input = .error (stop finish .expression input) := by
    intro inside
    cases input with
    | nil => rfl
    | cons token rest => cases kind : token.kind <;> simp_all [atom, startsAtom, Token.Kind.startsAtom]
  cases room with
  | zero => simp only [expression, sum, level, application, atoms]
  | succ room => simp only [expression, sum, level, application, atoms]

section Readers

variable {reader : Reader Token Expr}

theorem wantsParts_atom {inside : Option (Reader Token Expr)}
    (wants : ∀ inner ∈ inside, ∀ input, WantsParts (inner input)) (input : List Token) :
    WantsParts (atom finish inside input) := by
  have operand : ∀ rest, (stop finish .expression rest).InExpression :=
    inExpression_stop (by simp)
  cases input with
  | nil => exact .error (operand _)
  | cons token rest =>
    simp only [atom]
    cases token.kind with
    | identifier => exact .ok _
    | integer =>
      cases Text.Integer.read? token.text with
      | none =>
        refine .error ?_
        simp [Fault.InExpression]
      | some value => exact .ok _
    | opening =>
      cases inside with
      | none => exact .error (inExpression_stop (by simp) _)
      | some inner =>
        have first := wants inner rfl rest
        dsimp only
        generalize inner rest = result at first
        cases result with
        | error fault => exact .error (first fault rfl)
        | ok reading =>
          have last := @wantsParts_expect_closing finish reading.rest
          dsimp only
          generalize expect finish .closing reading.rest = closing at last
          cases closing with
          | error fault => exact .error (last fault rfl)
          | ok closed => exact .ok _
    | _ => exact .error (operand _)

variable (wants : ∀ input, WantsParts (reader input))
include wants

theorem wantsParts_run {taken : List Expr} {within : input.length < bound} :
    WantsParts (run reader taken input within) := by
  fun_induction run reader taken input within with
  | case1 taken input within starts fault readNext => exact .error (wants input fault readNext)
  | case2 taken input within starts next readNext ih => exact ih
  | case3 => exact .ok _

theorem wantsParts_application (input : List Token) :
    WantsParts (application finish reader input) := by
  have first := wants input
  unfold application
  generalize reader input = result at first
  cases result with
  | error fault => exact .error (first fault rfl)
  | ok callee =>
    have others := @wantsParts_run _ _ _ wants [] callee.shorter
    dsimp only
    generalize run reader [] callee.rest callee.shorter = result at others
    cases result with
    | error fault => exact .error (others fault rfl)
    | ok arguments =>
      dsimp only
      split
      next => exact .ok _
      next => exact wantsParts_limitDepth _

theorem wantsParts_chain {precedence : Nat} {left : Expr} {within : input.length < bound} :
    WantsParts (chain finish precedence reader left input within) := by
  fun_induction chain finish precedence reader left input within with
  | case1 => exact .ok _
  | case2 => exact .ok _
  | case3 left token rest within operator isOperator fault read => exact .error (wants rest fault read)
  | case4 left token rest within operator isOperator right read fault limit =>
    exact .error (wantsParts_limitDepth _ fault limit)
  | case5 left token rest within operator isOperator right read joined limit _ ih => exact ih

theorem wantsParts_level {precedence : Nat} (input : List Token) :
    WantsParts (level finish precedence reader input) := by
  have first := wants input
  unfold level
  generalize reader input = result at first
  cases result with
  | error fault => exact .error (first fault rfl)
  | ok reading => exact wantsParts_chain wants

theorem wantsParts_sum (input : List Token) : WantsParts (sum finish reader input) :=
  wantsParts_level (wantsParts_level (wantsParts_application wants)) input

end Readers

/-- An expression is never refused for want of an end. -/
theorem wantsParts_expression (finish : Position) (room : Nat) (input : List Token) :
    WantsParts (expression finish room input) := by
  induction room generalizing input with
  | zero =>
    have atoms : ∀ input, WantsParts (atom finish none input) := by
      apply wantsParts_atom
      rintro inner ⟨⟩
    exact wantsParts_sum atoms input
  | succ room ih =>
    have atoms : ∀ input, WantsParts (atom finish (some (expression finish room)) input) := by
      apply wantsParts_atom
      rintro inner ⟨⟩
      exact ih
    exact wantsParts_sum atoms input

end Infix

end ShaderDefs
