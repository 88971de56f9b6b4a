import ShaderDefs.Proofs.Infix.Completeness
import ShaderDefs.Proofs.Infix.Frontier
import ShaderDefs.Proofs.Infix.Soundness

/-! Where readers stop. A reader of expressions goes where the tokens it uses lead. If it fails short of
the depth limit, then at the first token that may not come next. -/

set_option autoImplicit false

namespace ShaderDefs.Infix

/-- The fault says that the depth limit is reached, or stands at the first token that may not come
next. -/
inductive Stops (finish : Position) (state : Frontier) (input : List Token) : Fault → Prop where
  | deep (position : Position) (found : String) :
      Stops finish state input (.unexpected position .shallowExpression found)
  | refused {front rest : List Token} {stopped : Frontier} (expected : Expectation)
      (shape : input = front ++ rest) (goes : state.run front = some stopped)
      (unfinished : stopped ≠ .done) (refuses : ∀ token ∈ rest.head?, stopped.step token = none) :
      Stops finish state input (stop finish expected rest)

/-- Reading either stops in the state or uses tokens that lead to where an atom may be continued. What
it leaves holds on to the tree less tightly than the bound. -/
inductive Follows (finish : Position) (bound opened : Nat) (state : Frontier) (input : List Token)
    {Value : Type} {size : Nat} : Except Fault (Reading Token Value size) → Prop where
  | error {fault : Fault} (stops : Stops finish state input fault) :
      Follows finish bound opened state input (.error fault)
  | ok {reading : Reading Token Value size} {front : List Token}
      (shape : input = front ++ reading.rest) (goes : state.run front = some (.continued opened))
      (loose : hold reading.rest < bound) : Follows finish bound opened state input (.ok reading)

variable {finish : Position} {opened : Nat} {state next : Frontier} {front rest input : List Token}

theorem Stops.shallow (left : List Token) :
    Stops finish state input (stop finish .shallowExpression left) := by
  cases left with
  | nil => exact .deep _ _
  | cons token left => exact .deep _ _

theorem Stops.here (expected : Expectation) (unfinished : state ≠ .done)
    (refuses : ∀ token ∈ input.head?, state.step token = none) :
    Stops finish state input (stop finish expected input) :=
  .refused expected (List.nil_append input).symm (Frontier.run_nil state) unfinished refuses

theorem Stops.append {fault : Fault} (goes : state.run front = some next)
    (stops : Stops finish next rest fault) : Stops finish state (front ++ rest) fault := by
  cases stops with
  | deep position found => exact .deep position found
  | @refused more left stopped expected shape further unfinished refuses =>
    have whole : front ++ rest = (front ++ more) ++ left := by rw [shape, List.append_assoc]
    refine .refused expected whole ?_ unfinished refuses
    rw [Frontier.run_append, goes, Option.bind_some, further]

theorem Follows.append {bound : Nat} {Value : Type} {size : Nat}
    {result : Except Fault (Reading Token Value size)} (goes : state.run front = some next)
    (follows : Follows finish bound opened next rest result) :
    Follows finish bound opened state (front ++ rest) result := by
  cases follows with
  | error stops => exact .error (stops.append goes)
  | @ok reading more shape further loose =>
    have whole : front ++ rest = (front ++ more) ++ reading.rest := by
      rw [shape, List.append_assoc]
    refine .ok whole ?_ loose
    rw [Frontier.run_append, goes, Option.bind_some, further]

theorem Stops.continued {fault : Fault} (starts : startsAtom input)
    (stops : Stops finish (.operand opened) input fault) :
    Stops finish (.continued opened) input fault := by
  cases stops with
  | deep position found => exact .deep position found
  | @refused front rest stopped expected shape goes unfinished refuses =>
    subst shape
    cases front with
    | nil =>
      cases goes
      refine .here expected nofun fun token head => ?_
      obtain ⟨others, rfl⟩ := List.head?_eq_some_iff.1 head
      rw [Frontier.step_continued starts, refuses token head]
    | cons token front =>
      rw [← @Frontier.run_continued _ (token :: front) starts] at goes
      exact .refused expected rfl goes unfinished refuses

theorem hold_lt_four (tokens : List Token) : hold tokens < 4 := by
  cases tokens with
  | nil => exact Nat.succ_pos 3
  | cons token rest =>
    cases kind : token.kind with
    | operator operator =>
      rw [hold_operator kind]
      cases operator <;> decide
    | _ => simp [hold, kind]

theorem hold_lt_three {tokens : List Token} (stops : startsAtom tokens = false) :
    hold tokens < 3 := by
  cases tokens with
  | nil => exact Nat.succ_pos 2
  | cons token rest =>
    cases kind : token.kind with
    | operator operator =>
      rw [hold_operator kind]
      cases operator <;> decide
    | _ => simp_all [hold, startsAtom, Token.Kind.startsAtom]

theorem hold_lt_of_operatorAt? {precedence : Nat} {token : Token} {rest : List Token}
    (positive : 0 < precedence) (low : precedence < 3)
    (loose : hold (token :: rest) < precedence + 1) (other : operatorAt? precedence token = none) :
    hold (token :: rest) < precedence := by
  cases kind : token.kind with
  | operator operator =>
    rw [hold_operator kind] at loose ⊢
    have apart : operator.precedence ≠ precedence := by
      rintro rfl
      rw [operatorAt?_precedence kind] at other
      cases other
    omega
  | _ =>
    simp only [hold, kind] at loose ⊢
    omega

section Readers

variable {atom operand : Reader Token Expr}

theorem follows_limitDepth {bound size : Nat} {reading : Reading Token Expr size}
    (follows : @Follows finish bound opened state input Expr size (.ok reading)) :
    Follows finish bound opened state input (limitDepth finish reading) := by
  unfold limitDepth
  split
  next => exact follows
  next => exact .error (.shallow _)

theorem length_le_of_run {bound : Nat} {taken : List Expr} {within : input.length < bound}
    {reading : Reading Token (List Expr) bound} (read : run atom taken input within = .ok reading) :
    taken.length ≤ reading.value.length := by
  fun_induction run atom taken input within with
  | case1 => cases read
  | case2 taken input within starts next readNext ih => exact Nat.le_of_succ_le (ih read)
  | case3 taken input within =>
    cases read
    rw [List.length_reverse]

theorem startsAtom_of_run_eq_nil {bound : Nat} {within : input.length < bound}
    {reading : Reading Token (List Expr) bound} (read : run atom [] input within = .ok reading)
    (none : reading.value = []) : startsAtom input = false := by
  rw [Bool.eq_false_iff]
  intro starts
  rw [run, if_pos starts] at read
  split at read
  next => cases read
  next =>
    have some := length_le_of_run read
    rw [none] at some
    cases some

theorem Follows.continued {bound size : Nat} {Value : Type}
    {result : Except Fault (Reading Token Value size)} (starts : startsAtom input)
    (follows : Follows finish bound opened (.operand opened) input result) :
    Follows finish bound opened (.continued opened) input result := by
  cases follows with
  | error stops => exact .error (stops.continued starts)
  | @ok reading front shape goes loose =>
    cases front with
    | nil => cases goes
    | cons token front =>
      refine .ok shape ?_ loose
      rw [shape] at starts
      rw [← goes]
      exact @Frontier.run_continued _ (token :: front) starts

theorem follows_run
    (follows : ∀ opened input, Follows finish 4 opened (.operand opened) input (atom input))
    {bound : Nat} {taken : List Expr} {within : input.length < bound} :
    Follows finish 3 opened (.continued opened) input (run atom taken input within) := by
  fun_induction run atom taken input within with
  | case1 taken input within starts fault readNext =>
    have next := (follows opened input).continued starts
    rw [readNext] at next
    cases next with
    | error stops => exact .error stops
  | case2 taken input within starts next readNext ih =>
    have first := (follows opened input).continued starts
    rw [readNext] at first
    cases first with
    | ok shape goes =>
      have whole := ih.append goes
      rwa [← shape] at whole
  | case3 taken input within stops =>
    refine .ok (List.nil_append input).symm (Frontier.run_nil _) ?_
    exact hold_lt_three (Bool.eq_false_iff.2 stops)

theorem follows_application
    (follows : ∀ opened input, Follows finish 4 opened (.operand opened) input (atom input))
    (opened : Nat) (input : List Token) :
    Follows finish 3 opened (.operand opened) input (application finish atom input) := by
  have first := follows opened input
  unfold application
  generalize atom input = result at first
  cases first with
  | error stops => exact .error stops
  | @ok callee front shape goes =>
    have next := (@follows_run _ _ _ _ follows _ [] callee.shorter).append goes
    rw [← shape] at next
    dsimp only
    generalize read : run atom [] callee.rest callee.shorter = result at next
    cases next with
    | error stops => exact .error stops
    | @ok arguments tokens whole further loose =>
      dsimp only
      split
      next none =>
        have stops := startsAtom_of_run_eq_nil read (List.isEmpty_iff.1 none)
        exact .ok shape goes (hold_lt_three stops)
      next => exact follows_limitDepth (.ok whole further loose)

theorem follows_operand {precedence bound size : Nat} {Value : Type} {token : Token}
    {operator : Operator} {result : Except Fault (Reading Token Value size)}
    (isOperator : operatorAt? precedence token = some operator)
    (follows : Follows finish bound opened (.operand opened) rest result) :
    Follows finish bound opened (.continued opened) (token :: rest) result := by
  have goes : Frontier.run (.continued opened) [token] = some (.operand opened) := by
    rw [Frontier.run_cons, Frontier.step_operator (operatorAt?_eq_some_iff.1 isOperator).1]
    rfl
  exact follows.append goes

theorem follows_chain {precedence : Nat} (positive : 0 < precedence) (low : precedence < 3)
    (follows : ∀ opened input,
      Follows finish (precedence + 1) opened (.operand opened) input (operand input))
    {bound : Nat} {left : Expr} {within : input.length < bound}
    (loose : hold input < precedence + 1) :
    Follows finish precedence opened (.continued opened) input
      (chain finish precedence operand left input within) := by
  fun_induction chain finish precedence operand left input within with
  | case1 left within => exact .ok rfl (Frontier.run_nil _) positive
  | case2 left token rest within other =>
    refine .ok (List.nil_append _).symm (Frontier.run_nil _) ?_
    exact hold_lt_of_operatorAt? positive low loose other
  | case3 left token rest within operator isOperator fault read =>
    have next := follows_operand isOperator (follows opened rest)
    rw [read] at next
    cases next with
    | error stops => exact .error stops
  | case4 left token rest within operator isOperator right read fault limit =>
    have next := follows_operand isOperator (follows opened rest)
    rw [read] at next
    cases next with
    | ok shape goes loose =>
      have joined := @follows_limitDepth finish _ _ _ _ _
        ⟨.binary operator left right.value, right.rest, right.shorter⟩ (.ok shape goes loose)
      rw [limit] at joined
      cases joined with
      | error stops => exact .error stops
  | case5 left token rest within operator isOperator right read joined limit _ ih =>
    obtain ⟨rfl, _⟩ := limitDepth_eq_ok limit
    have next := follows_operand isOperator (follows opened rest)
    rw [read] at next
    cases next with
    | ok shape goes loose =>
      have whole := (ih loose).append goes
      rwa [← shape] at whole

theorem follows_level {precedence : Nat} (positive : 0 < precedence) (low : precedence < 3)
    (follows : ∀ opened input,
      Follows finish (precedence + 1) opened (.operand opened) input (operand input))
    (opened : Nat) (input : List Token) :
    Follows finish precedence opened (.operand opened) input
      (level finish precedence operand input) := by
  have first := follows opened input
  unfold level
  generalize operand input = result at first
  cases first with
  | error stops => exact .error stops
  | @ok reading front shape goes loose =>
    have whole := (@follows_chain _ _ _ _ _ positive low follows _ reading.value reading.shorter
      loose).append goes
    rwa [← shape] at whole

theorem follows_sum
    (follows : ∀ opened input, Follows finish 4 opened (.operand opened) input (atom input))
    (opened : Nat) (input : List Token) :
    Follows finish 1 opened (.operand opened) input (sum finish atom input) := by
  have products : ∀ opened input, Follows finish 2 opened (.operand opened) input
      (level finish 2 (application finish atom) input) :=
    follows_level (by decide) (by decide) (follows_application follows)
  exact follows_level (by decide) (by decide) products opened input

theorem expect_eq_error {kind : Token.Kind} {fault : Fault}
    (read : expect finish kind input = .error fault) :
    fault = stop finish (.token kind) input ∧ ∀ token ∈ input.head?, token.kind ≠ kind := by
  cases input with
  | nil =>
    cases read
    exact ⟨rfl, nofun⟩
  | cons token rest =>
    by_cases same : token.kind = kind
    · rw [expect, if_pos same] at read
      cases read
    · rw [expect, if_neg same] at read
      cases read
      refine ⟨rfl, ?_⟩
      rintro _ ⟨⟩
      exact same

theorem expectEnd_eq_error {kind : Token.Kind} {fault : Fault}
    (read : expectEnd finish kind input = .error fault) :
    fault = stop finish (.token kind) input ∧ ∀ token ∈ input.head?, token.kind.isEnd = false := by
  cases input with
  | nil => cases read
  | cons token rest =>
    by_cases ends : token.kind.isEnd
    · rw [expectEnd, if_pos ends] at read
      cases read
    · rw [expectEnd, if_neg ends] at read
      cases read
      refine ⟨rfl, ?_⟩
      rintro _ ⟨⟩
      exact Bool.eq_false_iff.2 ends

/-- Behind an expression that nothing holds on to, only what closes it may come: a parenthesis if one is
open, and else a line end. -/
theorem step_continued_eq_none {left : List Token} (loose : hold left < 1)
    (noClosing : ∀ token ∈ left.head?, token.kind = .closing → opened = 0)
    (noEnd : ∀ token ∈ left.head?, token.kind = .lineEnd → opened ≠ 0) :
    ∀ token ∈ left.head?, Frontier.step (.continued opened) token = none := by
  intro token head
  obtain ⟨rest, rfl⟩ := List.head?_eq_some_iff.1 head
  have closing := noClosing token head
  have lineEnd := noEnd token head
  cases kind : token.kind with
  | operator operator =>
    rw [hold_operator kind] at loose
    cases operator <;> simp [Operator.precedence] at loose
  | closing =>
    obtain rfl := closing kind
    simp [Frontier.step, Frontier.atomStep, kind]
  | lineEnd =>
    obtain ⟨more, rfl⟩ := Nat.exists_eq_succ_of_ne_zero (lineEnd kind)
    simp [Frontier.step, Frontier.atomStep, kind]
  | _ => simp_all [hold, Frontier.step, Frontier.atomStep]

theorem follows_parentheses {opening : Token} {inner : Reader Token Expr}
    (opens : opening.kind = .opening)
    (follows : ∀ opened input, Follows finish 1 opened (.operand opened) input (inner input)) :
    Follows finish 4 opened (.operand opened) (opening :: rest)
      (Infix.atom finish (some inner) (opening :: rest)) := by
  have first : Frontier.run (.operand opened) [opening] = some (.operand (opened + 1)) := by
    rw [Frontier.run_cons, Frontier.step_opening opens]
    rfl
  have next := (follows (opened + 1) rest).append first
  simp only [Infix.atom, opens]
  generalize inner rest = result at next
  cases next with
  | error stops => exact .error stops
  | @ok reading front shape goes loose =>
    dsimp only
    generalize read : expect finish .closing reading.rest = result
    cases result with
    | error fault =>
      obtain ⟨rfl, other⟩ := expect_eq_error read
      have refuses := step_continued_eq_none loose
        (fun token head closes => absurd closes (other token head))
        (fun _ _ _ => Nat.succ_ne_zero opened)
      exact .error (.refused _ shape goes (Frontier.continued_ne_done _) refuses)
    | ok closed =>
      obtain ⟨used, closes⟩ := expect_eq_ok read
      have whole : opening :: rest = (front ++ [closed.value]) ++ closed.rest := by
        rw [List.append_assoc, List.singleton_append, ← used]
        exact shape
      refine .ok whole ?_ (hold_lt_four _)
      rw [Frontier.run_append, goes, Option.bind_some, Frontier.run_cons,
        Frontier.step_closing closes]
      rfl

theorem follows_atom {inside : Option (Reader Token Expr)}
    (follows : ∀ inner ∈ inside, ∀ opened input,
      Follows finish 1 opened (.operand opened) input (inner input))
    (opened : Nat) (input : List Token) :
    Follows finish 4 opened (.operand opened) input (Infix.atom finish inside input) := by
  cases input with
  | nil => exact .error (.here .expression nofun nofun)
  | cons token rest =>
    have refused (expected : Expectation) (refuses : Frontier.step (.operand opened) token = none) :
        Stops finish (.operand opened) (token :: rest) (stop finish expected (token :: rest)) := by
      apply Stops.here
      · exact nofun
      · rintro _ ⟨⟩
        exact refuses
    have taken {reading : Reading Token Expr (token :: rest).length} (left : reading.rest = rest)
        (goes : Frontier.step (.operand opened) token = some (.continued opened)) :
        @Follows finish 4 opened (.operand opened) (token :: rest) Expr _ (.ok reading) := by
      have whole : token :: rest = [token] ++ reading.rest := by rw [left]; rfl
      refine .ok whole ?_ (hold_lt_four _)
      rw [Frontier.run_cons, goes]
      rfl
    cases kind : token.kind with
    | identifier =>
      simp only [Infix.atom, kind]
      exact taken rfl (by simp [Frontier.step, Frontier.atomStep, kind])
    | integer =>
      simp only [Infix.atom, kind]
      cases value : Text.Integer.read? token.text with
      | none =>
        exact .error (refused .fittingInteger (by simp [Frontier.step, Frontier.atomStep, kind, value]))
      | some number =>
        exact taken rfl (by simp [Frontier.step, Frontier.atomStep, kind, value])
    | opening =>
      cases inside with
      | none =>
        simp only [Infix.atom, kind]
        exact .error (.shallow rest)
      | some inner => exact follows_parentheses kind (follows inner rfl)
    | _ =>
      simp only [Infix.atom, kind]
      exact .error (refused .expression (by simp [Frontier.step, Frontier.atomStep, kind]))

end Readers

/-- Reading an expression goes where its tokens lead, inside any number of parentheses. -/
theorem follows_expression (finish : Position) (room opened : Nat) (input : List Token) :
    Follows finish 1 opened (.operand opened) input (expression finish room input) := by
  induction room generalizing opened input with
  | zero =>
    have atoms := @follows_atom finish none nofun
    exact follows_sum atoms opened input
  | succ room ih =>
    have atoms : ∀ opened input, Follows finish 4 opened (.operand opened) input
        (atom finish (some (expression finish room)) input) := by
      apply follows_atom
      rintro inner ⟨⟩
      exact ih
    exact follows_sum atoms opened input

end ShaderDefs.Infix
