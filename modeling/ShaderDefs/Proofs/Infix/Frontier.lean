import ShaderDefs.Proofs.Infix.Grammar
import ShaderDefs.Proofs.Token.Spelling

/-! How far a line has come. What the next token of a definition may be depends on little: on what stood
just before it and on how many parentheses are open. A machine with these states follows every
derivation of an expression, and whatever it follows can be derived. -/

set_option autoImplicit false

namespace ShaderDefs

open Infix (Derives Level)

/-- What the next token of a line may be. -/
inductive Frontier where
  /-- The name of the definition. -/
  | name
  /-- A parameter or the equals sign. -/
  | parameter
  /-- The first token of an atom, inside so many parentheses. -/
  | operand (opened : Nat)
  /-- An operator, a further atom, or what closes the innermost parenthesis. Where none is open, a line
  end closes the line. -/
  | continued (opened : Nat)
  /-- Nothing. -/
  | done
  deriving DecidableEq

namespace Frontier

def atomStep (opened : Nat) (token : Token) : Option Frontier :=
  match token.kind with
  | .identifier => some (.continued opened)
  | .integer => (Text.Integer.read? token.text).map fun _ => .continued opened
  | .opening => some (.operand (opened + 1))
  | _ => none

def step : Frontier → Token → Option Frontier
  | .name, token => if token.kind = .identifier then some .parameter else none
  | .parameter, token =>
    match token.kind with
    | .identifier => some .parameter
    | .equals => some (.operand 0)
    | _ => none
  | .operand opened, token => atomStep opened token
  | .continued opened, token =>
    match token.kind, opened with
    | .operator _, opened => some (.operand opened)
    | .closing, opened + 1 => some (.continued opened)
    | .lineEnd, 0 => some .done
    | _, opened => atomStep opened token
  | .done, _ => none

def run (state : Frontier) (tokens : List Token) : Option Frontier := tokens.foldlM step state

theorem run_nil (state : Frontier) : state.run [] = some state := rfl

theorem run_cons (state : Frontier) (token : Token) (rest : List Token) :
    state.run (token :: rest) = (state.step token).bind (·.run rest) :=
  List.foldlM_cons

theorem run_append (state : Frontier) (front rest : List Token) :
    state.run (front ++ rest) = (state.run front).bind (·.run rest) :=
  List.foldlM_append

variable {opened : Nat} {token : Token}

theorem step_operator {operator : Operator} (kind : token.kind = .operator operator) :
    step (.continued opened) token = some (.operand opened) := by
  simp [step, kind]

theorem step_opening (kind : token.kind = .opening) :
    step (.operand opened) token = some (.operand (opened + 1)) := by
  simp [step, atomStep, kind]

theorem step_closing (kind : token.kind = .closing) :
    step (.continued (opened + 1)) token = some (.continued opened) := by
  simp [step, kind]

theorem eq_done_of_step_lineEnd {state next : Frontier} (kind : token.kind = .lineEnd)
    (steps : state.step token = some next) : next = .done := by
  cases state with
  | continued opened =>
    cases opened with
    | zero => simpa [step, kind, eq_comm] using steps
    | succ opened => simp [step, atomStep, kind] at steps
  | _ => simp [step, atomStep, kind] at steps

theorem continued_ne_done (opened : Nat) : continued opened ≠ done := by
  intro same
  cases same

theorem step_continued (starts : token.kind.startsAtom) :
    step (.continued opened) token = step (.operand opened) token := by
  cases kind : token.kind <;> simp_all [step, Token.Kind.startsAtom]

theorem run_continued {tokens : List Token} (starts : Infix.startsAtom tokens) :
    run (.continued opened) tokens = run (.operand opened) tokens := by
  cases tokens with
  | nil => cases starts
  | cons token rest => rw [run_cons, run_cons, step_continued starts]

def Leads (opened : Nat) (tokens : List Token) : Prop :=
  run (.operand opened) tokens = some (.continued opened)

section Leads

variable {left right tokens : List Token}

theorem Leads.append_atom (head : Leads opened left) (starts : Infix.startsAtom right)
    (next : Leads opened right) : Leads opened (left ++ right) := by
  rw [Leads, run_append, head, Option.bind_some, run_continued starts]
  exact next

theorem Leads.append_operator {operator : Operator} (head : Leads opened left)
    (kind : token.kind = .operator operator) (next : Leads opened right) :
    Leads opened (left ++ token :: right) := by
  rw [Leads, run_append, head, Option.bind_some, run_cons, step_operator kind]
  exact next

theorem Leads.parentheses {opening closing : Token} (opens : opening.kind = .opening)
    (closes : closing.kind = .closing) (inner : Leads (opened + 1) tokens) :
    Leads opened (opening :: (tokens ++ [closing])) := by
  rw [Leads, run_cons, step_opening opens, Option.bind_some, run_append, inner, Option.bind_some,
    run_cons, step_closing closes]
  rfl

end Leads

end Frontier

namespace Infix

open Frontier (Leads)

/-- The machine follows every derivation. -/
theorem Derives.leads {level : Level} {tokens : List Token} {expr : Expr} {nesting : Nat}
    (derives : Derives level tokens expr nesting) (opened : Nat) : Leads opened tokens := by
  -- The number of open parentheses is general because there is one more inside.
  induction derives generalizing opened with
  | name kind => simp [Leads, Frontier.run, Frontier.step, Frontier.atomStep, kind]
  | @integer token value kind numeral =>
    have fits := (Text.Integer.read?_eq_some_iff_numeral numeral.1 value).2 numeral
    simp [Leads, Frontier.run, Frontier.step, Frontier.atomStep, kind, fits]
  | parentheses opens closes _ ih => exact (ih (opened + 1)).parentheses opens closes
  | apply _ next headIh nextIh =>
    have starts := next.startsAtom []
    rw [List.append_nil] at starts
    exact (headIh opened).append_atom starts (nextIh opened)
  | extend _ next headIh nextIh =>
    have starts := next.startsAtom []
    rw [List.append_nil] at starts
    exact (headIh opened).append_atom starts (nextIh opened)
  | lone _ ih => exact ih opened
  | run _ ih => exact ih opened
  | factor _ ih => exact ih opened
  | multiply _ kind _ _ headIh nextIh => exact (headIh opened).append_operator kind (nextIh opened)
  | term _ ih => exact ih opened
  | add _ kind _ _ headIh nextIh => exact (headIh opened).append_operator kind (nextIh opened)

def Derivable (level : Level) (tokens : List Token) : Prop :=
  ∃ expr nesting, Derives level tokens expr nesting

def Level.joined : Level → Level
  | .atom => .run
  | level => level

section Derivable

variable {head tokens : List Token}

theorem Derivable.sum (atom : Derivable .atom tokens) : Derivable .sum tokens := by
  obtain ⟨expr, nesting, derives⟩ := atom
  exact ⟨expr, nesting, .term (.factor (.lone derives))⟩

theorem Derivable.append_atom {level : Level} (front : Derivable level head)
    (atom : Derivable .atom tokens) : Derivable level.joined (head ++ tokens) := by
  obtain ⟨expr, nesting, derives⟩ := front
  obtain ⟨argument, last, next⟩ := atom
  induction derives with
  | name kind => exact ⟨_, _, .apply (.name kind) next⟩
  | integer kind numeral => exact ⟨_, _, .apply (.integer kind numeral) next⟩
  | parentheses opens closes inner => exact ⟨_, _, .apply (.parentheses opens closes inner) next⟩
  | apply first second => exact ⟨_, _, .extend (.apply first second) next⟩
  | extend first second => exact ⟨_, _, .extend (.extend first second) next⟩
  | lone _ ih =>
    obtain ⟨expr, nesting, run⟩ := ih
    exact ⟨expr, nesting, .run run⟩
  | run _ ih =>
    obtain ⟨expr, nesting, run⟩ := ih
    exact ⟨expr, nesting, .run run⟩
  | factor _ ih =>
    obtain ⟨expr, nesting, application⟩ := ih
    exact ⟨expr, nesting, .factor application⟩
  | multiply first kind multiplies _ _ ih =>
    obtain ⟨expr, nesting, application⟩ := ih
    rw [List.append_assoc, List.cons_append]
    exact ⟨_, _, .multiply first kind multiplies application⟩
  | term _ ih =>
    obtain ⟨expr, nesting, product⟩ := ih
    exact ⟨expr, nesting, .term product⟩
  | add first kind adds _ _ ih =>
    obtain ⟨expr, nesting, product⟩ := ih
    rw [List.append_assoc, List.cons_append]
    exact ⟨_, _, .add first kind adds product⟩

theorem Derivable.append_operator {token : Token} {operator : Operator}
    (front : Derivable .sum head) (kind : token.kind = .operator operator)
    (atom : Derivable .atom tokens) : Derivable .sum (head ++ token :: tokens) := by
  obtain ⟨expr, nesting, derives⟩ := front
  obtain ⟨last, depth, next⟩ := atom
  by_cases adds : operator = .add ∨ operator = .subtract
  · exact ⟨_, _, .add derives kind adds (.factor (.lone next))⟩
  · have multiplies : operator = .multiply ∨ operator = .divide := by
      cases operator <;> simp_all
    cases derives with
    | term product => exact ⟨_, _, .term (.multiply product kind multiplies (.lone next))⟩
    | add first other otherAdds product =>
      rw [List.append_assoc, List.cons_append]
      exact ⟨_, _, .add first other otherAdds (.multiply product kind multiplies (.lone next))⟩

theorem Derivable.parentheses {opening closing : Token} (opens : opening.kind = .opening)
    (closes : closing.kind = .closing) (inner : Derivable .sum tokens) :
    Derivable .atom (opening :: (tokens ++ [closing])) := by
  obtain ⟨expr, nesting, derives⟩ := inner
  exact ⟨expr, nesting + 1, .parentheses opens closes derives⟩

end Derivable

/-- The tokens are those of an expression but for so many closing parentheses. Each open one stands
where an atom may stand. -/
def Unclosed : Nat → List Token → Prop
  | 0, tokens => Derivable .sum tokens
  | opened + 1, tokens => ∃ outer opening inner, tokens = outer ++ opening :: inner ∧
    opening.kind = .opening ∧ Derivable .sum inner ∧
    ∀ atom, Derivable .atom atom → Unclosed opened (outer ++ atom)

def Wanting (opened : Nat) (tokens : List Token) : Prop :=
  ∀ atom, Derivable .atom atom → Unclosed opened (tokens ++ atom)

section Unclosed

variable {opened : Nat} {tokens : List Token} {token : Token}

theorem wanting_nil : Wanting 0 [] := fun _ atom => atom.sum

theorem Unclosed.wanting (unclosed : Unclosed opened tokens) : Wanting opened tokens := by
  intro atom derivable
  cases opened with
  | zero => exact Derivable.append_atom unclosed derivable
  | succ opened =>
    obtain ⟨outer, opening, inner, rfl, opens, sum, hosts⟩ := unclosed
    rw [List.append_assoc, List.cons_append]
    exact ⟨outer, opening, inner ++ atom, rfl, opens, sum.append_atom derivable, hosts⟩

theorem Unclosed.wanting_operator {operator : Operator} (unclosed : Unclosed opened tokens)
    (kind : token.kind = .operator operator) : Wanting opened (tokens ++ [token]) := by
  intro atom derivable
  rw [List.append_assoc, List.singleton_append]
  cases opened with
  | zero => exact Derivable.append_operator unclosed kind derivable
  | succ opened =>
    obtain ⟨outer, opening, inner, rfl, opens, sum, hosts⟩ := unclosed
    rw [List.append_assoc, List.cons_append]
    exact ⟨outer, opening, _, rfl, opens, sum.append_operator kind derivable, hosts⟩

theorem Wanting.opening (wanting : Wanting opened tokens) (opens : token.kind = .opening) :
    Wanting (opened + 1) (tokens ++ [token]) := by
  intro atom derivable
  rw [List.append_assoc, List.singleton_append]
  exact ⟨tokens, token, atom, rfl, opens, derivable.sum, wanting⟩

theorem Unclosed.closing (unclosed : Unclosed (opened + 1) tokens) (closes : token.kind = .closing) :
    Unclosed opened (tokens ++ [token]) := by
  obtain ⟨outer, opening, inner, rfl, opens, sum, hosts⟩ := unclosed
  rw [List.append_assoc, List.cons_append]
  exact hosts _ (sum.parentheses opens closes)

end Unclosed

end Infix

end ShaderDefs
