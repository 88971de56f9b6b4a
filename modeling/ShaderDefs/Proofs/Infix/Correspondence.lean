import Mathlib.Data.List.Forall2
import ShaderDefs.Infix.Read

/-! Reading tokens that correspond. A reader decides by the kinds and the texts of tokens and only
copies their places, and it never looks past an end. So sequences whose tokens correspond one by one,
up to the first end, are read to the same tree or to faults at tokens that correspond. -/

set_option autoImplicit false

namespace ShaderDefs

namespace Token

def Respects (pairs : Token → Token → Prop) : Prop :=
  ∀ ⦃first second : Token⦄, pairs first second → first.kind = second.kind ∧ first.text = second.text

/-- The tokens correspond one by one. What comes after an end does not matter. -/
inductive Alike (pairs : Token → Token → Prop) : List Token → List Token → Prop where
  | nil : Alike pairs [] []
  | stop {first second : Token} {rest others : List Token} (pair : pairs first second)
      (ends : first.kind.isEnd) : Alike pairs (first :: rest) (second :: others)
  | cons {first second : Token} {rest others : List Token} (pair : pairs first second)
      (more : Alike pairs rest others) : Alike pairs (first :: rest) (second :: others)

variable {pairs : Token → Token → Prop}

theorem Alike.forall₂_append {tokens others rest left : List Token}
    (each : List.Forall₂ pairs tokens others) (more : Alike pairs rest left) :
    Alike pairs (tokens ++ rest) (others ++ left) := by
  induction each with
  | nil => exact more
  | cons pair _ ih => exact .cons pair ih

theorem Alike.of_forall₂ {tokens others : List Token} (each : List.Forall₂ pairs tokens others) :
    Alike pairs tokens others := by
  have whole := Alike.forall₂_append each .nil
  rwa [List.append_nil, List.append_nil] at whole

theorem Alike.exists_cons {first : Token} {rest other : List Token}
    (alike : Alike pairs (first :: rest) other) :
    ∃ second others, other = second :: others ∧ pairs first second ∧
      (first.kind.isEnd = false → Alike pairs rest others) := by
  cases alike with
  | stop pair ends => exact ⟨_, _, rfl, pair, fun goesOn => by simp [ends] at goesOn⟩
  | cons pair more => exact ⟨_, _, rfl, pair, fun _ => more⟩

end Token

namespace Fault

inductive Alike (pairs : Token → Token → Prop) : Fault → Fault → Prop where
  | unknownCharacter {first second : Token} {character : Char} (pair : pairs first second)
      (kind : first.kind = .unknown character) :
      Alike pairs (.unknownCharacter first.position character)
        (.unknownCharacter second.position character)
  | unexpected {first second : Token} (pair : pairs first second) (expected : Expectation) :
      Alike pairs (.unexpected first.position expected first.text)
        (.unexpected second.position expected second.text)

inductive Agree (pairs : Token → Token → Prop) {First Second : Type}
    (results : First → Second → Prop) : Except Fault First → Except Fault Second → Prop where
  | ok {first : First} {second : Second} (same : results first second) :
      Agree pairs results (.ok first) (.ok second)
  | error {first second : Fault} (alike : Alike pairs first second) :
      Agree pairs results (.error first) (.error second)

end Fault

namespace Infix

open Token (Respects)
open Fault (Agree)

structure ReadingsAlike (pairs : Token → Token → Prop) {Value : Type}
    (values : Value → Value → Prop) {bound limit : Nat} (first : Reading Token Value bound)
    (second : Reading Token Value limit) : Prop where
  value : values first.value second.value
  rest : Token.Alike pairs first.rest second.rest

def ReadersAlike (pairs : Token → Token → Prop) (first second : Reader Token Expr) : Prop :=
  ∀ ⦃input other : List Token⦄, Token.Alike pairs input other →
    Agree pairs (ReadingsAlike pairs Eq) (first input) (second other)

def EndsAlike (pairs : Token → Token → Prop) (finish last : Position) : Prop :=
  ∃ first second, pairs first second ∧ first.text = "" ∧ first.position = finish ∧
    second.position = last

variable {pairs : Token → Token → Prop} {finish last : Position}
variable {reader partner : Reader Token Expr} {input other : List Token}

theorem alike_stop (respects : Respects pairs) (ends : EndsAlike pairs finish last)
    (expected : Expectation) (alike : Token.Alike pairs input other) :
    Fault.Alike pairs (stop finish expected input) (stop last expected other) := by
  have place : ∀ {token partner : Token}, pairs token partner →
      Fault.Alike pairs (.unexpected token.position expected token.text)
        (.unexpected partner.position expected partner.text) := fun pair => .unexpected pair expected
  cases alike with
  | nil =>
    obtain ⟨first, second, pair, empty, rfl, rfl⟩ := ends
    have fault := place pair
    rwa [← (respects pair).2, empty] at fault
  | stop pair => exact place pair
  | cons pair => exact place pair

theorem agree_expect (respects : Respects pairs) (ends : EndsAlike pairs finish last)
    (kind : Token.Kind) (inner : kind.isEnd = false) (alike : Token.Alike pairs input other) :
    Agree pairs (ReadingsAlike pairs pairs) (expect finish kind input) (expect last kind other) := by
  have fault := alike_stop respects ends (.token kind) alike
  cases input with
  | nil =>
    cases alike
    exact .error fault
  | cons first rest =>
    obtain ⟨second, others, rfl, pair, more⟩ := alike.exists_cons
    have kinds := (respects pair).1
    by_cases same : first.kind = kind
    · simp only [expect, ← kinds, same, if_true]
      exact .ok ⟨pair, more (same ▸ inner)⟩
    · simp only [expect, ← kinds, same, if_false]
      exact .error fault

theorem agree_limitDepth (respects : Respects pairs) (ends : EndsAlike pairs finish last)
    {bound limit : Nat} {reading : Reading Token Expr bound} {twin : Reading Token Expr limit}
    (alike : ReadingsAlike pairs Eq reading twin) :
    Agree pairs (ReadingsAlike pairs Eq) (limitDepth finish reading) (limitDepth last twin) := by
  unfold limitDepth
  rw [← alike.value]
  split
  next => exact .ok alike
  next => exact .error (alike_stop respects ends _ alike.rest)

theorem readersAlike_atom (respects : Respects pairs) (ends : EndsAlike pairs finish last)
    {inside within : Option (Reader Token Expr)}
    (same : Option.Rel (ReadersAlike pairs) inside within) :
    ReadersAlike pairs (atom finish inside) (atom last within) := by
  intro input other alike
  have fault := alike_stop respects ends .expression alike
  cases input with
  | nil =>
    cases alike
    exact .error fault
  | cons first rest =>
    obtain ⟨second, others, rfl, pair, more⟩ := alike.exists_cons
    obtain ⟨kinds, texts⟩ := respects pair
    simp only [atom, ← kinds, ← texts]
    cases kind : first.kind with
    | identifier => exact .ok ⟨rfl, more (by simp [kind, Token.Kind.isEnd])⟩
    | integer =>
      cases Text.Integer.read? first.text with
      | none =>
        have misfit := Fault.Alike.unexpected pair .fittingInteger
        rw [← texts] at misfit
        exact .error misfit
      | some value => exact .ok ⟨rfl, more (by simp [kind, Token.Kind.isEnd])⟩
    | opening =>
      have tail := more (by simp [kind, Token.Kind.isEnd])
      cases same with
      | none => exact .error (alike_stop respects ends _ tail)
      | @some expression twin inner =>
        have inside := inner tail
        dsimp only
        generalize expression rest = result, twin others = twinResult at inside
        cases inside with
        | error refused => exact .error refused
        | @ok reading twinReading same =>
          have close := agree_expect respects ends .closing rfl same.rest
          dsimp only
          generalize expect finish .closing reading.rest = result,
            expect last .closing twinReading.rest = twinResult at close
          cases close with
          | error refused => exact .error refused
          | ok closed => exact .ok ⟨same.value, closed.rest⟩
    | _ => exact .error fault

theorem startsAtom_eq (respects : Respects pairs) (alike : Token.Alike pairs input other) :
    startsAtom input = startsAtom other := by
  cases alike with
  | nil => rfl
  | stop pair => rw [startsAtom, startsAtom, (respects pair).1]
  | cons pair => rw [startsAtom, startsAtom, (respects pair).1]

theorem agree_run (respects : Respects pairs) (alike : ReadersAlike pairs reader partner)
    {bound width : Nat} {taken : List Expr} {input other : List Token}
    {within : input.length < bound} {less : other.length < width}
    (same : Token.Alike pairs input other) :
    Agree pairs (ReadingsAlike pairs Eq) (run reader taken input within)
      (run partner taken other less) := by
  rw [run.eq_def reader, run.eq_def partner, ← startsAtom_eq respects same]
  split
  next =>
    have next := alike same
    generalize reader input = result, partner other = twinResult at next
    cases next with
    | error refused => exact .error refused
    | @ok reading twin readings =>
      dsimp only
      rw [← readings.value]
      -- Both loops take the same steps, so the recursion is that of the loop itself.
      exact agree_run respects alike readings.rest
  next => exact .ok ⟨rfl, same⟩
termination_by input.length
decreasing_by exact reading.shorter

theorem readersAlike_application (respects : Respects pairs) (ends : EndsAlike pairs finish last)
    (alike : ReadersAlike pairs reader partner) :
    ReadersAlike pairs (application finish reader) (application last partner) := by
  intro input other same
  have first := alike same
  unfold application
  generalize reader input = result, partner other = twinResult at first
  cases first with
  | error refused => exact .error refused
  | @ok callee twin callees =>
    have others : Agree pairs (ReadingsAlike pairs Eq) (run reader [] callee.rest callee.shorter)
        (run partner [] twin.rest twin.shorter) := agree_run respects alike callees.rest
    dsimp only
    generalize run reader [] callee.rest callee.shorter = result,
      run partner [] twin.rest twin.shorter = twinResult at others
    cases others with
    | error refused => exact .error refused
    | ok arguments =>
      dsimp only
      rw [← arguments.value]
      split
      next => exact .ok callees
      next => exact agree_limitDepth respects ends ⟨by rw [callees.value], arguments.rest⟩

theorem operatorAt?_eq (respects : Respects pairs) {first second : Token} (pair : pairs first second)
    (precedence : Nat) : operatorAt? precedence first = operatorAt? precedence second := by
  rw [operatorAt?, operatorAt?, (respects pair).1]

theorem isEnd_of_operatorAt? {precedence : Nat} {token : Token} {operator : Operator}
    (isOperator : operatorAt? precedence token = some operator) : token.kind.isEnd = false := by
  unfold operatorAt? at isOperator
  split at isOperator
  next kind => simp [kind, Token.Kind.isEnd]
  next => cases isOperator

theorem agree_chain (respects : Respects pairs) (ends : EndsAlike pairs finish last)
    (alike : ReadersAlike pairs reader partner) {precedence bound width : Nat} {left : Expr}
    {input other : List Token} {within : input.length < bound} {less : other.length < width}
    (same : Token.Alike pairs input other) :
    Agree pairs (ReadingsAlike pairs Eq) (chain finish precedence reader left input within)
      (chain last precedence partner left other less) := by
  rw [chain.eq_def finish, chain.eq_def last]
  match input, within, same with
  | [], _, same =>
    cases same
    exact .ok ⟨rfl, .nil⟩
  | first :: rest, within, same =>
    obtain ⟨second, others, rfl, pair, more⟩ := same.exists_cons
    dsimp only
    rw [← operatorAt?_eq respects pair]
    cases isOperator : operatorAt? precedence first with
    | none => exact .ok ⟨rfl, same⟩
    | some operator =>
      have next := alike (more (isEnd_of_operatorAt? isOperator))
      dsimp only
      generalize reader rest = result, partner others = twinResult at next
      cases next with
      | error refused => exact .error refused
      | @ok right twin rights =>
        have joined : Agree pairs (ReadingsAlike pairs Eq)
            (limitDepth finish ⟨.binary operator left right.value, right.rest, right.shorter⟩)
            (limitDepth last ⟨.binary operator left twin.value, twin.rest, twin.shorter⟩) :=
          agree_limitDepth respects ends ⟨by rw [rights.value], rights.rest⟩
        dsimp only
        generalize limitDepth finish ⟨.binary operator left right.value, _, _⟩ = result,
          limitDepth last ⟨.binary operator left twin.value, _, _⟩ = twinResult at joined
        cases joined with
        | error refused => exact .error refused
        | @ok tree twinTree trees =>
          dsimp only
          rw [← trees.value]
          exact agree_chain respects ends alike trees.rest
termination_by input.length
decreasing_by exact Nat.lt_succ_of_lt tree.shorter

theorem readersAlike_level (respects : Respects pairs) (ends : EndsAlike pairs finish last)
    (alike : ReadersAlike pairs reader partner) (precedence : Nat) :
    ReadersAlike pairs (level finish precedence reader) (level last precedence partner) := by
  intro input other same
  have first := alike same
  unfold level
  generalize reader input = result, partner other = twinResult at first
  cases first with
  | error refused => exact .error refused
  | ok firsts =>
    dsimp only
    rw [← firsts.value]
    exact agree_chain respects ends alike firsts.rest

theorem readersAlike_sum (respects : Respects pairs) (ends : EndsAlike pairs finish last)
    (alike : ReadersAlike pairs reader partner) :
    ReadersAlike pairs (sum finish reader) (sum last partner) :=
  have application := readersAlike_application respects ends alike
  readersAlike_level respects ends (readersAlike_level respects ends application 2) 1

theorem readersAlike_expression (respects : Respects pairs) (ends : EndsAlike pairs finish last)
    (room : Nat) : ReadersAlike pairs (expression finish room) (expression last room) := by
  induction room with
  | zero => exact readersAlike_sum respects ends (readersAlike_atom respects ends .none)
  | succ room ih => exact readersAlike_sum respects ends (readersAlike_atom respects ends (.some ih))

theorem agree_expectEnd (respects : Respects pairs) (ends : EndsAlike pairs finish last)
    (kind : Token.Kind) (alike : Token.Alike pairs input other) :
    Agree pairs Eq (expectEnd finish kind input) (expectEnd last kind other) := by
  have fault := alike_stop respects ends (.token kind) alike
  cases input with
  | nil =>
    cases alike
    exact .ok rfl
  | cons first rest =>
    obtain ⟨second, others, rfl, pair, _⟩ := alike.exists_cons
    simp only [expectEnd, ← (respects pair).1]
    split
    next => exact .ok rfl
    next => exact .error fault

end Infix

end ShaderDefs
