import ShaderDefs.Proofs.Definition.Statement
import ShaderDefs.Proofs.Infix.Completeness
import ShaderDefs.Proofs.Infix.Soundness

/-! Declarations: the lines that define something. A statement line of a source text is read exactly
when it is a declaration within the limits, and then to the one definition it declares. -/

set_option autoImplicit false

namespace ShaderDefs

open Reading (Yields TooDeep)

namespace Definition

/-- The tokens are a name, parameters, an equals sign, and the tokens of an expression whose
parentheses nest to the given number, and they stand for the definition. -/
inductive Declares : List Token → Definition → Nat → Prop where
  | line {name equals : Token} {parameters tokens : List Token} {body : Expr} {nesting : Nat}
      (named : name.kind = .identifier)
      (parametersNamed : ∀ parameter ∈ parameters, parameter.kind = .identifier)
      (equates : equals.kind = .equals) (derives : Infix.Derives .sum tokens body nesting) :
      Declares (name :: (parameters ++ equals :: tokens))
        { name := name.text
          parameters := parameters.map (·.text)
          parameterPositions := parameters.map (·.position)
          body := body
          position := name.position } nesting

theorem Declares.kind_of_mem {tokens : List Token} {definition : Definition} {nesting : Nat}
    (declares : Declares tokens definition nesting) {token : Token} (member : token ∈ tokens) :
    token.kind.isEnd = false ∧ Fault.ofToken? token = none := by
  obtain ⟨named, parametersNamed, equates, derives⟩ := declares
  simp only [List.mem_cons, List.mem_append] at member
  rcases member with rfl | member | rfl | member
  · simp [Token.Kind.isEnd, Fault.ofToken?, named]
  · simp [Token.Kind.isEnd, Fault.ofToken?, parametersNamed token member]
  · simp [Token.Kind.isEnd, Fault.ofToken?, equates]
  · exact derives.kind_of_mem member

theorem ofTokens_eq {place : Position} {name equals : Token} {parameters rest : List Token}
    (named : name.kind = .identifier)
    (parametersNamed : ∀ parameter ∈ parameters, parameter.kind = .identifier)
    (equates : equals.kind = .equals) :
    ofTokens place (name :: (parameters ++ equals :: rest)) =
      match Infix.expression place maxDepth rest with
      | .error fault => .error fault
      | .ok body =>
        match Infix.expectEnd place .lineEnd body.rest with
        | .error fault => .error fault
        | .ok () => .ok {
            name := name.text
            parameters := parameters.map (·.text)
            parameterPositions := parameters.map (·.position)
            body := body.value
            position := name.position } := by
  have identifiers : ∀ token ∈ parameters, decide (token.kind = .identifier) = true := by
    simpa using parametersNamed
  have taken : (parameters ++ equals :: rest).takeWhile (fun token => token.kind = .identifier) =
      parameters := by
    simp [List.takeWhile_append_of_pos identifiers, equates]
  have dropped : (parameters ++ equals :: rest).dropWhile (fun token => token.kind = .identifier) =
      equals :: rest := by
    simp [List.dropWhile_append_of_pos identifiers, equates]
  obtain ⟨_, readName⟩ := Infix.yields_expect place rfl named
  obtain ⟨_, readEquals⟩ := Infix.yields_expect place dropped equates
  rw [ofTokens, readName]
  dsimp only
  rw [taken, readEquals]
  dsimp only
  cases Infix.expression place maxDepth rest with
  | error fault => rfl
  | ok body => cases Infix.expectEnd place .lineEnd body.rest <;> rfl

/-- A declaration is read exactly within the limits. -/
theorem Declares.readLine {tokens rest : List Token} {definition : Definition} {nesting : Nat}
    (declares : Declares tokens definition nesting)
    (ends : ∀ token ∈ rest.head?, token.kind.isEnd) (known : rest.findSome? Fault.ofToken? = none) :
    (Infix.Fits maxDepth definition.body nesting → readLine (tokens ++ rest) = .ok definition) ∧
      (¬Infix.Fits maxDepth definition.body nesting → TooDeep (readLine (tokens ++ rest))) := by
  have allKnown : (tokens ++ rest).findSome? Fault.ofToken? = none := by
    rw [List.findSome?_append, known, Option.or_none, List.findSome?_eq_none_iff]
    exact fun token member => (declares.kind_of_mem member).2
  unfold Definition.readLine
  rw [allKnown]
  generalize Infix.finishOf (tokens ++ rest) = place
  obtain ⟨named, parametersNamed, equates, derives⟩ := declares
  have settles := derives.settles place maxDepth (Infix.hold_of_head_isEnd ends)
  dsimp only
  rw [List.cons_append, List.append_assoc, List.cons_append,
    ofTokens_eq named parametersNamed equates]
  constructor
  · intro fits
    obtain ⟨_, read⟩ := settles.yields fits
    rw [read]
    simp only [Infix.expectEnd_of_isEnd ends]
  · intro deep
    obtain ⟨position, found, read⟩ := settles.tooDeep deep
    exact ⟨position, found, by rw [read]⟩

theorem declares_of_readLine {line : List Token} {definition : Definition}
    (spelled : ∀ token ∈ line, token.Spelled) (read : readLine line = .ok definition) :
    ∃ tokens rest nesting, line = tokens ++ rest ∧ (∀ token ∈ rest.head?, token.kind.isEnd) ∧
      Declares tokens definition nesting ∧ Infix.Fits maxDepth definition.body nesting := by
  unfold Definition.readLine at read
  split at read
  next => cases read
  unfold ofTokens at read
  split at read
  next => cases read
  next name readName =>
  dsimp only at read
  split at read
  next => cases read
  next equals readEquals =>
  split at read
  next => cases read
  next body readBody =>
  split at read
  next => cases read
  next readEnd =>
  cases read
  obtain ⟨nameShape, named⟩ := Infix.expect_eq_ok readName
  obtain ⟨equalsShape, equates⟩ := Infix.expect_eq_ok readEquals
  have parametersNamed : ∀ token ∈ name.rest.takeWhile (fun token => token.kind = .identifier),
      token.kind = .identifier := fun token member => by simpa using List.mem_takeWhile_imp member
  have restShape : name.rest = name.rest.takeWhile (fun token => token.kind = .identifier) ++
      equals.value :: equals.rest := by
    rw [← equalsShape, List.takeWhile_append_dropWhile]
  generalize name.rest.takeWhile (fun token => token.kind = .identifier) = parameters at *
  have lineShape : line = name.value :: (parameters ++ equals.value :: equals.rest) :=
    nameShape.trans (congrArg _ restShape)
  obtain ⟨tokens, nesting, bodyShape, derives, fits⟩ := Infix.sound_expression _ maxDepth
    (fun token member => spelled token (by rw [lineShape]; simp [member])) readBody
  have shape : name.value :: (parameters ++ equals.value :: equals.rest) =
      name.value :: (parameters ++ equals.value :: tokens) ++ body.rest :=
    (congrArg (fun rest => name.value :: (parameters ++ equals.value :: rest)) bodyShape).trans
      (by simp)
  exact ⟨_, body.rest, nesting, lineShape.trans shape, Infix.isEnd_of_expectEnd readEnd,
    .line named parametersNamed equates derives, fits⟩

/-- The only end in a statement line is its last token, so what is left there is that token. -/
theorem eq_of_append_eq {front rest body : List Token} {finish : Token}
    (same : front ++ rest = body ++ [finish]) (closes : finish.kind.isEnd)
    (inFront : ∀ token ∈ front, token.kind.isEnd = false)
    (inBody : ∀ token ∈ body, token.kind.isEnd = false)
    (ends : ∀ token ∈ rest.head?, token.kind.isEnd) : front = body := by
  cases rest with
  | nil =>
    rw [List.append_nil] at same
    have := inFront finish (by simp [same])
    simp [closes] at this
  | cons token rest =>
    rcases List.eq_nil_or_concat rest with rfl | ⟨init, last, rfl⟩
    · exact (List.append_inj' same rfl).1
    · have split : front ++ token :: init ++ [last] = body ++ [finish] := by simpa using same
      have := inBody token (by simp [← (List.append_inj' split rfl).1])
      simp [ends token rfl] at this

/-- A statement line of a source text is read exactly if the tokens before its line end declare
something within the limits, and what it declares is unique. Beyond the limits the fault says so. A
line with a character outside the language declares nothing. -/
theorem readLine_eq_ok_iff_declares {source : String} {line : List Token}
    (statement : line ∈ statements (Token.ofText source)) :
    ∃ tokens finish, line = tokens ++ [finish] ∧ finish.kind = .lineEnd ∧
      (∀ definition, readLine line = .ok definition ↔ ∃ nesting,
        Declares tokens definition nesting ∧ nesting ≤ maxDepth ∧ definition.body.depth ≤ maxDepth) ∧
      (∀ definition other nesting, readLine line = .ok definition → Declares tokens other nesting →
        other = definition) ∧
      ∀ definition nesting, Declares tokens definition nesting →
        maxDepth < nesting ∨ maxDepth < definition.body.depth →
        ∃ position found, readLine line = .error (.unexpected position .shallowExpression found) := by
  have spelled := spelled_of_mem statement
  obtain ⟨body, finish, rfl, _, inBody, closes⟩ := isStatement_of_mem statement
  have isEnd : finish.kind.isEnd := (Token.Kind.isEnd_iff _).2 (.inl closes)
  have settles : ∀ {definition nesting}, Declares body definition nesting →
      (Infix.Fits maxDepth definition.body nesting → readLine (body ++ [finish]) = .ok definition) ∧
        (¬Infix.Fits maxDepth definition.body nesting → TooDeep (readLine (body ++ [finish]))) := by
    intro definition nesting declares
    apply declares.readLine
    · rintro _ ⟨⟩
      exact isEnd
    · simp [Fault.ofToken?, closes]
  refine ⟨body, finish, rfl, closes, ?_, ?_, ?_⟩
  · intro definition
    constructor
    · intro read
      obtain ⟨tokens, rest, nesting, same, ends, declares, fits⟩ := declares_of_readLine spelled read
      -- What is read stops at an end, and the line has none but its last token.
      have inTokens : ∀ token ∈ tokens, token.kind.isEnd = false :=
        fun token member => (declares.kind_of_mem member).1
      have whole : tokens = body := eq_of_append_eq same.symm isEnd inTokens inBody ends
      exact ⟨nesting, whole ▸ declares, fits⟩
    · rintro ⟨nesting, declares, fits⟩
      exact (settles declares).1 fits
  · intro definition other nesting read declares
    -- A declaration beyond the limits would have been refused.
    by_cases fits : Infix.Fits maxDepth other.body nesting
    · have readOther := (settles declares).1 fits
      rw [read] at readOther
      cases readOther
      rfl
    · obtain ⟨position, found, deep⟩ := (settles declares).2 fits
      rw [read] at deep
      cases deep
  · intro definition nesting declares beyond
    apply (settles declares).2
    rintro ⟨nests, shallow⟩
    omega

theorem readLine_product_of_sum :
    ∃ line ∈ statements (Token.ofText "f x = x * (x + 1)\n"), ∃ tokens finish definition nesting,
      line = tokens ++ [finish] ∧ readLine line = .ok definition ∧
        Declares tokens definition nesting ∧ definition.body =
          .binary .multiply (.identifier "x") (.binary .add (.identifier "x") (.literal 1)) := by
  have member := List.head_mem
    (show statements (Token.ofText "f x = x * (x + 1)\n") ≠ [] by decide +kernel)
  obtain ⟨tokens, finish, same, _, iff, _⟩ := readLine_eq_ok_iff_declares member
  have read : readLine ((statements (Token.ofText "f x = x * (x + 1)\n")).head (by decide +kernel)) =
      .ok {
        name := "f"
        parameters := ["x"]
        parameterPositions := [⟨1, 3⟩]
        body := .binary .multiply (.identifier "x") (.binary .add (.identifier "x") (.literal 1))
        position := ⟨1, 1⟩ } := by decide +kernel
  obtain ⟨nesting, declares, _⟩ := (iff _).1 read
  exact ⟨_, member, tokens, finish, _, nesting, same, read, declares, rfl⟩

end Definition

end ShaderDefs
