import ShaderDefs.Definition.Read
import ShaderDefs.Proofs.Infix.Correspondence
import ShaderDefs.Proofs.Relocation

/-! Reading lines that correspond. Lines whose tokens correspond are read to definitions that differ in
places only, or to faults that differ in places only. So a line that is moved is read to what it was
read to before, moved along with it, and a fault always stands at a token of its line. -/

set_option autoImplicit false

namespace ShaderDefs

open Token (Respects)
open Fault (Agree)

namespace Token

def MovesTo (move : Position → Position) (first second : Token) : Prop :=
  first.relocate move = second

theorem respects_movesTo {move : Position → Position} : Respects (MovesTo move) := by
  rintro token _ rfl
  exact ⟨rfl, rfl⟩

variable {pairs : Token → Token → Prop}

theorem Alike.span_identifiers (respects : Respects pairs) {tokens others : List Token}
    (alike : Alike pairs tokens others) :
    List.Forall₂ pairs (tokens.takeWhile fun token => token.kind = .identifier)
        (others.takeWhile fun token => token.kind = .identifier) ∧
      Alike pairs (tokens.dropWhile fun token => token.kind = .identifier)
        (others.dropWhile fun token => token.kind = .identifier) := by
  induction alike with
  | nil => exact ⟨.nil, .nil⟩
  | @stop first second rest others pair ends =>
    have other : first.kind ≠ .identifier := by
      intro same
      simp [same, Kind.isEnd] at ends
    simp only [List.takeWhile_cons, List.dropWhile_cons, ← (respects pair).1, other]
    exact ⟨.nil, .stop pair ends⟩
  | @cons first second rest others pair more ih =>
    simp only [List.takeWhile_cons, List.dropWhile_cons, ← (respects pair).1]
    split
    next => exact ⟨.cons pair ih.1, ih.2⟩
    next => exact ⟨.nil, .cons pair more⟩

end Token

theorem Fault.rel_ofToken? {pairs : Token → Token → Prop} (respects : Respects pairs)
    {first second : Token} (pair : pairs first second) :
    Option.Rel (Alike pairs) (ofToken? first) (ofToken? second) := by
  unfold ofToken?
  rw [← (respects pair).1]
  cases kind : first.kind with
  | unknown character => exact .some (.unknownCharacter pair kind)
  | _ => exact .none

def Fault.Names (token : Token) : Fault → Prop
  | .unknownCharacter position character =>
    token.position = position ∧ token.kind = .unknown character
  | .unexpected position _ found => token.position = position ∧ token.text = found

theorem Fault.Names.position_eq {token : Token} {fault : Fault} (names : fault.Names token) :
    token.position = fault.position := by
  cases fault with
  | unknownCharacter position character => exact names.1
  | unexpected position expected found => exact names.1

theorem Fault.names_of_ofToken? {token : Token} {fault : Fault} (made : ofToken? token = some fault) :
    fault.Names token := by
  unfold ofToken? at made
  cases kind : token.kind with
  | unknown character =>
    rw [kind] at made
    cases made
    exact ⟨rfl, kind⟩
  | _ => simp [kind] at made

theorem Fault.Alike.exists_names {pairs : Token → Token → Prop} {first second : Fault}
    (alike : Alike pairs first second) : ∃ token twin, pairs token twin ∧ first.Names token := by
  cases alike with
  | unknownCharacter pair kind => exact ⟨_, _, pair, rfl, kind⟩
  | unexpected pair => exact ⟨_, _, pair, rfl, rfl⟩

namespace Definition

inductive Alike (pairs : Token → Token → Prop) : Definition → Definition → Prop where
  | line {name twin : Token} {parameters others : List Token} (body : Expr) (pair : pairs name twin)
      (each : List.Forall₂ pairs parameters others) :
      Alike pairs
        { name := name.text
          parameters := parameters.map (·.text)
          parameterPositions := parameters.map (·.position)
          body := body
          position := name.position }
        { name := twin.text
          parameters := others.map (·.text)
          parameterPositions := others.map (·.position)
          body := body
          position := twin.position }

variable {pairs : Token → Token → Prop} {line others : List Token}

theorem agree_ofTokens (respects : Respects pairs) {finish last : Position}
    (ends : Infix.EndsAlike pairs finish last) (alike : Token.Alike pairs line others) :
    Agree pairs (Alike pairs) (ofTokens finish line) (ofTokens last others) := by
  have name := Infix.agree_expect respects ends .identifier rfl alike
  unfold ofTokens
  generalize Infix.expect finish .identifier line = result,
    Infix.expect last .identifier others = twinResult at name
  cases name with
  | error refused => exact .error refused
  | @ok name twin names =>
    obtain ⟨parameters, tail⟩ := names.rest.span_identifiers respects
    have equals := Infix.agree_expect respects ends .equals rfl tail
    dsimp only
    generalize Infix.expect finish .equals _ = result,
      Infix.expect last .equals _ = twinResult at equals
    cases equals with
    | error refused => exact .error refused
    | ok equals =>
      have body := Infix.readersAlike_expression respects ends maxDepth equals.rest
      dsimp only
      generalize Infix.expression finish maxDepth _ = result,
        Infix.expression last maxDepth _ = twinResult at body
      cases body with
      | error refused => exact .error refused
      | ok bodies =>
        have close := Infix.agree_expectEnd respects ends .lineEnd bodies.rest
        dsimp only
        generalize Infix.expectEnd finish .lineEnd _ = result,
          Infix.expectEnd last .lineEnd _ = twinResult at close
        cases close with
        | error refused => exact .error refused
        | ok =>
          dsimp only
          rw [← bodies.value]
          exact .ok (.line _ names.value parameters)

theorem rel_findSome?_ofToken? (respects : Respects pairs) (each : List.Forall₂ pairs line others) :
    Option.Rel (Fault.Alike pairs) (line.findSome? Fault.ofToken?)
      (others.findSome? Fault.ofToken?) := by
  induction each with
  | nil => exact .none
  | @cons first second rest others pair _ ih =>
    have head := Fault.rel_ofToken? respects pair
    rw [List.findSome?_cons, List.findSome?_cons]
    generalize Fault.ofToken? first = result, Fault.ofToken? second = twinResult at head
    cases head with
    | some alike => exact .some alike
    | none => exact ih

theorem agree_readLine (respects : Respects pairs) (each : List.Forall₂ pairs line others)
    (ends : Infix.EndsAlike pairs (Infix.finishOf line) (Infix.finishOf others)) :
    Agree pairs (Alike pairs) (readLine line) (readLine others) := by
  have known := rel_findSome?_ofToken? respects each
  unfold readLine
  generalize line.findSome? Fault.ofToken? = result,
    others.findSome? Fault.ofToken? = twinResult at known
  cases known with
  | some alike => exact .error alike
  | none => exact agree_ofTokens respects ends (.of_forall₂ each)

theorem endsAlike_finishOf {finish last : Token} (pair : pairs finish last)
    (empty : finish.text = "") (body rest : List Token) :
    Infix.EndsAlike pairs (Infix.finishOf (body ++ [finish])) (Infix.finishOf (rest ++ [last])) :=
  ⟨finish, last, pair, empty, by simp [Infix.finishOf], by simp [Infix.finishOf]⟩

def IsClosed (line : List Token) : Prop :=
  ∃ body finish, line = body ++ [finish] ∧ finish.text = ""

section Moving

variable {move : Position → Position}

theorem forall₂_movesTo (tokens : List Token) :
    List.Forall₂ (Token.MovesTo move) tokens (tokens.map (·.relocate move)) := by
  unfold Token.MovesTo
  rw [← List.forall₂_map_left_iff, List.forall₂_eq_eq_eq]

theorem Alike.eq_relocate {first second : Definition}
    (alike : Alike (Token.MovesTo move) first second) : second = first.relocate move := by
  cases alike with
  | line body pair each =>
    unfold Token.MovesTo at pair each
    rw [← List.forall₂_map_left_iff, List.forall₂_eq_eq_eq] at each
    subst pair each
    simp only [relocate, List.map_map]
    rfl

/-- A line that is moved is read to what it was read to, moved in the same way. -/
theorem readLine_relocate (closed : IsClosed line) :
    readLine (line.map (·.relocate move)) =
      ((readLine line).map (·.relocate move)).mapError (·.relocate move) := by
  obtain ⟨body, finish, rfl, empty⟩ := closed
  have each := @forall₂_movesTo move (body ++ [finish])
  have last : Token.MovesTo move finish (finish.relocate move) := rfl
  rw [List.map_append, List.map_singleton] at each ⊢
  have agree := agree_readLine Token.respects_movesTo each (endsAlike_finishOf last empty _ _)
  generalize readLine (body ++ [finish]) = result,
    readLine (body.map (·.relocate move) ++ [finish.relocate move]) = moved at agree
  cases agree with
  | ok alike => rw [alike.eq_relocate]; rfl
  | error alike =>
    cases alike with
    | unknownCharacter pair => cases pair; rfl
    | unexpected pair => cases pair; rfl

end Moving

theorem exists_mem_of_readLine {fault : Fault} (closed : IsClosed line)
    (read : readLine line = .error fault) : ∃ token ∈ line, fault.Names token := by
  obtain ⟨body, finish, rfl, empty⟩ := closed
  -- A line corresponds to itself, and then only tokens of the line can be paired.
  let own (first second : Token) : Prop := first = second ∧ first ∈ body ++ [finish]
  have respects : Respects own := by
    rintro token _ ⟨rfl, _⟩
    exact ⟨rfl, rfl⟩
  have each : List.Forall₂ own (body ++ [finish]) (body ++ [finish]) :=
    List.forall₂_same.2 fun token member => ⟨rfl, member⟩
  have last : own finish finish := ⟨rfl, by simp⟩
  have agree := agree_readLine respects each (endsAlike_finishOf last empty body body)
  rw [read] at agree
  cases agree with
  | error alike =>
    obtain ⟨token, _, ⟨_, member⟩, names⟩ := alike.exists_names
    exact ⟨token, member, names⟩

end Definition

end ShaderDefs
