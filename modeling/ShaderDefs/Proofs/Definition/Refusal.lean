import ShaderDefs.Proofs.Definition.Progress
import ShaderDefs.Proofs.Definition.Recovery
import ShaderDefs.Proofs.Infix.Refusal

/-! Where lines are refused. A line that cannot be read, unless it is too deep, is refused at the first
token with which it can no longer become a declaration. -/

set_option autoImplicit false

namespace ShaderDefs

open Infix (Stops)

namespace Definition

variable {line header rest : List Token} {finish : Position} {fault : Fault}

theorem stops_or_exists_header (read : ofTokens finish line = .error fault) :
    Stops finish .name line fault ∨
      ∃ header rest, line = header ++ rest ∧ Frontier.IsHeader header := by
  unfold ofTokens at read
  split at read
  next refused readName =>
    obtain ⟨rfl, other⟩ := Infix.expect_eq_error readName
    cases read
    exact .inl (.here _ nofun fun token head => if_neg (other token head))
  next name readName =>
  obtain ⟨nameShape, named⟩ := Infix.expect_eq_ok readName
  have parametersNamed : ∀ token ∈ name.rest.takeWhile (fun token => token.kind = .identifier),
      token.kind = .identifier := fun token member => by simpa using List.mem_takeWhile_imp member
  have whole : line = (name.value :: name.rest.takeWhile fun token => token.kind = .identifier) ++
      name.rest.dropWhile fun token => token.kind = .identifier := by
    rw [List.cons_append, List.takeWhile_append_dropWhile, ← nameShape]
  dsimp only at read
  generalize name.rest.takeWhile (fun token => token.kind = .identifier) = parameters at *
  split at read
  next refused readEquals =>
    obtain ⟨rfl, other⟩ := Infix.expect_eq_error readEquals
    cases read
    refine .inl (.refused _ whole (Frontier.run_name named parametersNamed) nofun ?_)
    intro token head
    have noEquals := other token head
    have noName := List.head?_dropWhile_not (fun token : Token => token.kind = .identifier) name.rest
    rw [head] at noName
    cases kind : token.kind <;> simp_all [Frontier.step]
  next equals readEquals =>
    obtain ⟨equalsShape, equates⟩ := Infix.expect_eq_ok readEquals
    rw [equalsShape, List.cons_append, Frontier.header_append] at whole
    exact .inr ⟨_, equals.rest, whole, name.value, parameters, equals.value, rfl, named,
      parametersNamed, equates⟩

theorem stops_body (headed : Frontier.IsHeader header)
    (read : ofTokens finish (header ++ rest) = .error fault) :
    Stops finish .name (header ++ rest) fault := by
  have body := (Infix.follows_expression finish maxDepth 0 rest).append (Frontier.run_header headed)
  obtain ⟨name, parameters, equals, rfl, named, parametersNamed, equates⟩ := headed
  rw [← Frontier.header_append] at read body ⊢
  rw [ofTokens_eq named parametersNamed equates] at read
  generalize Infix.expression finish maxDepth rest = result at read body
  cases body with
  | error stops =>
    cases read
    exact stops
  | ok shape goes loose =>
    dsimp only at read
    split at read
    next refused readEnd =>
      obtain ⟨rfl, other⟩ := Infix.expectEnd_eq_error readEnd
      cases read
      refine .refused _ shape goes nofun (Infix.step_continued_eq_none loose (fun _ _ _ => rfl) ?_)
      intro token head closes
      have noEnd := other token head
      rw [closes] at noEnd
      cases noEnd
    next => cases read

/-- Reading a line stops where the machine does. -/
theorem stops_ofTokens (read : ofTokens finish line = .error fault) :
    Stops finish .name line fault := by
  rcases stops_or_exists_header read with stops | ⟨header, rest, rfl, headed⟩
  · exact stops
  · exact stops_body headed read

/-- Only a line end leads to the end of the machine, and it leads nowhere else. So a line that is
refused is refused at one of its tokens. -/
theorem exists_refused {position : Position} {expected : Expectation} {found : String}
    {body : List Token} {last : Token} (shape : line = body ++ [last]) (closes : last.kind = .lineEnd)
    (shallow : expected ≠ .shallowExpression)
    (stops : Stops finish .name line (.unexpected position expected found)) :
    ∃ front token rest state, line = front ++ token :: rest ∧ token.position = position ∧
      token.text = found ∧ Frontier.run .name front = some state ∧ state.step token = none := by
  generalize made : Fault.unexpected position expected found = fault at stops
  cases stops with
  | deep =>
    cases made
    exact absurd rfl shallow
  | @refused front rest stopped other whole goes unfinished refuses =>
    cases rest with
    | nil =>
      rw [List.append_nil] at whole
      rw [← whole, shape, Frontier.run_append] at goes
      obtain ⟨middle, _, further⟩ := Option.bind_eq_some_iff.1 goes
      obtain ⟨next, steps, same⟩ := Option.bind_eq_some_iff.1 further
      cases same
      exact absurd (Frontier.eq_done_of_step_lineEnd closes steps) unfinished
    | cons token rest =>
      cases made
      exact ⟨front, token, rest, stopped, whole, rfl, rfl, goes, refuses token rfl⟩

/-- A line that cannot be read is refused at its earliest token that rules out every declaration. The
tokens in front of that token can still be extended to a declaration, and no declaration begins with
them and the token. -/
theorem readLine_refuses_earliest_token {source : String} (short : source.length < UInt32.size - 1)
    {tokens : List Token} (statement : tokens ∈ statements (Token.ofText source)) {position : Position}
    {expected : Expectation} {found : String}
    (read : readLine tokens = .error (.unexpected position expected found))
    (shallow : expected ≠ .shallowExpression) :
    ∃ index token, tokens[index]? = some token ∧ token.position = position ∧ token.text = found ∧
      (∀ other twin, tokens[other]? = some twin → twin.position = position → other = index) ∧
      (∃ more, (∀ token ∈ more, token.Spelled) ∧ IsDeclaration (tokens.take index ++ more)) ∧
      ∀ more, ¬IsDeclaration (tokens.take (index + 1) ++ more) := by
  have ordered := pairwise_before_of_mem short statement
  have spelled := spelled_of_mem statement
  obtain ⟨body, finish, closed, _, _, closes⟩ := isStatement_of_mem statement
  unfold readLine at read
  split at read
  next fault known =>
    obtain ⟨token, _, made⟩ := List.exists_of_findSome?_eq_some known
    cases read
    unfold Fault.ofToken? at made
    split at made <;> cases made
  obtain ⟨front, token, rest, state, shape, place, text, goes, refuses⟩ :=
    exists_refused closed closes shallow (stops_ofTokens read)
  have here : tokens[front.length]? = some token := by simp [shape]
  refine ⟨front.length, token, here, place, text, ?_, ?_, ?_⟩
  · intro other twin again same
    exact Token.index_eq_of_pairwise_before ordered here again (same.trans place.symm)
  · obtain ⟨more, moreSpelled, finishes⟩ := Frontier.finishable state
    have taken : tokens.take front.length = front := by rw [shape, List.take_left]
    rw [taken]
    refine ⟨more, moreSpelled, Frontier.isDeclaration_of_run ?_ ?_⟩
    · rw [List.forall_mem_append]
      exact ⟨fun token member => spelled token (by simp [shape, member]), moreSpelled⟩
    · rw [Frontier.run_append, goes, Option.bind_some, finishes]
  · intro more declaration
    have runs := Frontier.run_of_isDeclaration declaration
    have taken : tokens.take (front.length + 1) = front ++ [token] := by
      rw [shape, List.append_cons, List.take_left' (by simp)]
    rw [taken, List.append_assoc, Frontier.run_append, goes, Option.bind_some,
      List.singleton_append, Frontier.run_cons, refuses] at runs
    cases runs

/-- In the second line the operand of the product is missing, and the parenthesis that is still open does
not matter there. -/
theorem readLine_refuses_missing_operand :
    let source := "f x = (x + 1)\ng = (a * )\n"
    let tokens := (statements (Token.ofText source)).getD 1 []
    readLine tokens = .error (.unexpected ⟨2, 10⟩ .expression ")") ∧
      tokens[5]? = some ⟨.closing, ")", ⟨2, 10⟩⟩ ∧
      (∃ more, IsDeclaration (tokens.take 5 ++ more)) ∧ ∀ more, ¬IsDeclaration (tokens.take 6 ++ more) := by
  intro source tokens
  have short : source.length < UInt32.size - 1 := by decide +kernel
  have statement : tokens ∈ statements (Token.ofText source) := by decide +kernel
  have read : readLine tokens = .error (.unexpected ⟨2, 10⟩ .expression ")") := by decide +kernel
  have fifth : tokens[5]? = some ⟨.closing, ")", ⟨2, 10⟩⟩ := by decide +kernel
  obtain ⟨index, token, _, _, _, only, ⟨more, _, extended⟩, never⟩ :=
    readLine_refuses_earliest_token short statement read nofun
  cases only 5 _ fifth rfl
  exact ⟨read, fifth, ⟨more, extended⟩, never⟩

end Definition

end ShaderDefs
