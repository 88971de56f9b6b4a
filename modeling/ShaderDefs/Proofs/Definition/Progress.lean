import ShaderDefs.Proofs.Definition.Declaration
import ShaderDefs.Proofs.Infix.Frontier

/-! How far a declaration has come. The lines that the machine follows to its end are those that declare
something, and from every state some tokens lead to the end. So it is open up to where the machine
refuses a token, and closed from there on, whether a line can still become a declaration. -/

set_option autoImplicit false

namespace ShaderDefs

open Infix (Derivable Unclosed Wanting)

/-- The tokens in front of a line end declare something, however deep. -/
def Definition.IsDeclaration (line : List Token) : Prop :=
  ∃ tokens finish definition nesting, line = tokens ++ [finish] ∧ finish.kind = .lineEnd ∧
    Declares tokens definition nesting

namespace Frontier

open Definition (IsDeclaration)

def IsHeader (tokens : List Token) : Prop :=
  ∃ name parameters equals, tokens = name :: (parameters ++ [equals]) ∧ name.kind = .identifier ∧
    (∀ parameter ∈ parameters, parameter.kind = .identifier) ∧ equals.kind = .equals

inductive Reached : Frontier → List Token → Prop where
  | name : Reached .name []
  | parameter {name : Token} {parameters : List Token} (named : name.kind = .identifier)
      (parametersNamed : ∀ parameter ∈ parameters, parameter.kind = .identifier) :
      Reached .parameter (name :: parameters)
  | operand {opened : Nat} {header tokens : List Token} (headed : IsHeader header)
      (wanting : Wanting opened tokens) : Reached (.operand opened) (header ++ tokens)
  | continued {opened : Nat} {header tokens : List Token} (headed : IsHeader header)
      (unclosed : Unclosed opened tokens) : Reached (.continued opened) (header ++ tokens)
  | done {line : List Token} (declaration : IsDeclaration line) : Reached .done line

variable {state next : Frontier} {opened : Nat} {front header tokens : List Token} {token : Token}

theorem header_append (name equals : Token) (parameters tokens : List Token) :
    name :: (parameters ++ equals :: tokens) = name :: (parameters ++ [equals]) ++ tokens := by
  rw [List.cons_append, List.append_assoc, List.singleton_append]

theorem IsHeader.isDeclaration {finish : Token} (headed : IsHeader header)
    (sum : Derivable .sum tokens) (closes : finish.kind = .lineEnd) :
    IsDeclaration (header ++ tokens ++ [finish]) := by
  obtain ⟨name, parameters, equals, rfl, named, parametersNamed, equates⟩ := headed
  obtain ⟨body, nesting, derives⟩ := sum
  have declares := Definition.Declares.line named parametersNamed equates derives
  rw [header_append] at declares
  exact ⟨_, finish, _, nesting, rfl, closes, declares⟩

theorem reached_of_atomStep (headed : IsHeader header) (wanting : Wanting opened tokens)
    (spelled : token.Spelled) (steps : atomStep opened token = some next) :
    Reached next (header ++ tokens ++ [token]) := by
  rw [List.append_assoc]
  unfold atomStep at steps
  split at steps
  next kind =>
    cases steps
    exact .continued headed (wanting _ ⟨_, _, .name kind⟩)
  next kind =>
    obtain ⟨value, read, rfl⟩ := Option.map_eq_some_iff.1 steps
    have digits : Text.IsDigits token.text.toList := by
      simpa [Token.Spelled, kind] using spelled
    have numeral := (Text.Integer.read?_eq_some_iff_numeral digits value).1 read
    exact .continued headed (wanting _ ⟨_, _, .integer kind numeral⟩)
  next kind =>
    cases steps
    exact .operand headed (wanting.opening kind)
  next => cases steps

theorem Reached.step (reached : Reached state front) (spelled : token.Spelled)
    (steps : state.step token = some next) : Reached next (front ++ [token]) := by
  cases reached with
  | name =>
    simp only [Frontier.step] at steps
    split at steps
    next kind =>
      cases steps
      exact .parameter kind (List.forall_mem_nil _)
    next => cases steps
  | @parameter name parameters named parametersNamed =>
    simp only [Frontier.step] at steps
    split at steps
    next kind =>
      cases steps
      refine .parameter named ?_
      simpa [or_imp, forall_and, kind] using parametersNamed
    next kind =>
      cases steps
      have headed : IsHeader (name :: (parameters ++ [token])) :=
        ⟨name, parameters, token, rfl, named, parametersNamed, kind⟩
      have reached := Reached.operand headed Infix.wanting_nil
      rwa [List.append_nil] at reached
    next => cases steps
  | operand headed wanting => exact reached_of_atomStep headed wanting spelled steps
  | @continued opened header tokens headed unclosed =>
    simp only [Frontier.step] at steps
    split at steps
    next kind =>
      cases steps
      rw [List.append_assoc]
      exact .operand headed (unclosed.wanting_operator kind)
    next kind =>
      cases steps
      rw [List.append_assoc]
      exact .continued headed (unclosed.closing kind)
    next kind =>
      cases steps
      exact .done (headed.isDeclaration unclosed kind)
    next => exact reached_of_atomStep headed unclosed.wanting spelled steps
  | done => cases steps

theorem Reached.run (reached : Reached state front) (spelled : ∀ token ∈ tokens, token.Spelled)
    (runs : state.run tokens = some next) : Reached next (front ++ tokens) := by
  induction tokens generalizing state front with
  | nil =>
    cases runs
    rwa [List.append_nil]
  | cons token rest ih =>
    obtain ⟨first, others⟩ := List.forall_mem_cons.1 spelled
    rw [run_cons] at runs
    obtain ⟨middle, steps, further⟩ := Option.bind_eq_some_iff.1 runs
    have whole := ih (reached.step first steps) others further
    rwa [List.append_assoc, List.singleton_append] at whole

theorem run_parameters {parameters : List Token}
    (named : ∀ parameter ∈ parameters, parameter.kind = .identifier) :
    Frontier.run .parameter parameters = some .parameter := by
  induction parameters with
  | nil => rfl
  | cons parameter rest ih =>
    obtain ⟨kind, others⟩ := List.forall_mem_cons.1 named
    rw [run_cons]
    simp only [Frontier.step, kind]
    exact ih others

theorem run_name {parameters : List Token} (named : token.kind = .identifier)
    (parametersNamed : ∀ parameter ∈ parameters, parameter.kind = .identifier) :
    Frontier.run .name (token :: parameters) = some .parameter := by
  rw [run_cons, Frontier.step, if_pos named, Option.bind_some, run_parameters parametersNamed]

theorem run_header (headed : IsHeader header) : Frontier.run .name header = some (.operand 0) := by
  obtain ⟨name, parameters, equals, rfl, named, parametersNamed, equates⟩ := headed
  rw [← List.cons_append, run_append, run_name named parametersNamed, Option.bind_some, run_cons]
  simp only [Frontier.step, equates]
  rfl

/-- The machine follows every declaration to the end. -/
theorem run_of_isDeclaration {line : List Token} (declaration : IsDeclaration line) :
    Frontier.run .name line = some .done := by
  obtain ⟨_, finish, _, _, rfl, closes, declares⟩ := declaration
  cases declares with
  | @line name equals parameters tokens body nesting named parametersNamed equates derives =>
    have headed : IsHeader (name :: (parameters ++ [equals])) :=
      ⟨name, parameters, equals, rfl, named, parametersNamed, equates⟩
    have body : Frontier.run (.operand 0) tokens = some (.continued 0) := derives.leads 0
    rw [header_append, List.append_assoc, run_append, run_header headed, Option.bind_some, run_append,
      body, Option.bind_some, run_cons]
    simp only [Frontier.step, closes]
    rfl

/-- What the machine follows to the end is a declaration. -/
theorem isDeclaration_of_run {line : List Token} (spelled : ∀ token ∈ line, token.Spelled)
    (runs : Frontier.run .name line = some .done) : IsDeclaration line := by
  have reached := Reached.name.run spelled runs
  rw [List.nil_append] at reached
  cases reached with
  | done declaration => exact declaration

def Finishable (state : Frontier) : Prop :=
  ∃ more, (∀ token ∈ more, token.Spelled) ∧ state.run more = some .done

theorem Finishable.of_step (finishable : Finishable next) (spelled : token.Spelled)
    (steps : state.step token = some next) : Finishable state := by
  obtain ⟨more, others, runs⟩ := finishable
  refine ⟨token :: more, List.forall_mem_cons.2 ⟨spelled, others⟩, ?_⟩
  rw [run_cons, steps, Option.bind_some, runs]

/-- No state is a dead end. A line can go on with a name, an equals sign, a name as an atom, closing
parentheses and a line end. -/
theorem finishable (state : Frontier) : Finishable state := by
  have nameSpelled : Text.IsName "x" := ⟨'x', [], rfl, .inl rfl, nofun⟩
  have continued : ∀ opened, Finishable (.continued opened) := by
    intro opened
    induction opened with
    | zero =>
      refine ⟨[⟨.lineEnd, "", .start⟩], ?_, rfl⟩
      intro token member
      cases List.mem_singleton.1 member
      rfl
    | succ opened ih =>
      have spelled : Token.Spelled ⟨.closing, ")", .start⟩ := rfl
      exact ih.of_step spelled rfl
  have operand : ∀ opened, Finishable (.operand opened) := by
    intro opened
    have spelled : Token.Spelled ⟨.identifier, "x", .start⟩ := nameSpelled
    exact (continued opened).of_step spelled rfl
  have parameter : Finishable .parameter := by
    have spelled : Token.Spelled ⟨.equals, "=", .start⟩ := rfl
    exact (operand 0).of_step spelled rfl
  cases state with
  | name =>
    have spelled : Token.Spelled ⟨.identifier, "x", .start⟩ := nameSpelled
    exact parameter.of_step spelled rfl
  | parameter => exact parameter
  | operand opened => exact operand opened
  | continued opened => exact continued opened
  | done => exact ⟨[], List.forall_mem_nil _, rfl⟩

end Frontier

end ShaderDefs
