import ShaderDefs.Proofs.Infix.Grammar
import ShaderDefs.Proofs.Reading

/-! Reading what the grammar derives. Tokens that derive a tree are read to exactly that tree and no
further, whatever follows them, as long as the tree and the parentheses are within the limits. Beyond
the limits the fault says so.

Chains and runs are built from the left, so for them the statement is about whatever the loop makes of
the tokens that are left: reading makes the same of all of them. -/

set_option autoImplicit false

namespace ShaderDefs.Infix

open Reading (Yields TooDeep Settles)

/-- How tightly the first of the tokens holds on to what stands before it. An atom joins a run, and an
operator binds by its precedence. -/
def hold : List Token → Nat
  | [] => 0
  | token :: _ =>
    match token.kind with
    | .operator operator => operator.precedence
    | .identifier | .integer | .opening => 3
    | _ => 0

theorem hold_operator {token : Token} {operator : Operator} (kind : token.kind = .operator operator)
    (rest : List Token) : hold (token :: rest) = operator.precedence := by
  simp [hold, kind]

theorem hold_of_isEnd {token : Token} (ends : token.kind.isEnd) (rest : List Token) :
    hold (token :: rest) = 0 := by
  rcases (Token.Kind.isEnd_iff _).1 ends with kind | kind <;> simp [hold, kind]

theorem startsAtom_of_hold_lt {tokens : List Token} (loose : hold tokens < 3) :
    startsAtom tokens = false := by
  cases tokens with
  | nil => rfl
  | cons token rest =>
    cases kind : token.kind <;> simp_all [hold, startsAtom, Token.Kind.startsAtom]

theorem operatorAt?_of_hold_lt {token : Token} {rest : List Token} {precedence : Nat}
    (loose : hold (token :: rest) < precedence) : operatorAt? precedence token = none := by
  unfold operatorAt?
  split
  next operator kind =>
    rw [hold_operator kind] at loose
    exact if_neg (Nat.ne_of_lt loose)
  next => rfl

theorem operatorAt?_precedence {token : Token} {operator : Operator}
    (kind : token.kind = .operator operator) :
    operatorAt? operator.precedence token = some operator := by
  simp [operatorAt?, kind]

section Loops

variable {finish : Position} {precedence : Nat} {atom operand : Reader Token Expr}
variable {input middle rest : List Token} {leftFits rightFits fits : Prop}

theorem settles_limitDepth (finish : Position) {bound : Nat} (reading : Reading Token Expr bound) :
    Settles (reading.value.depth ≤ maxDepth) (limitDepth finish reading) reading.value
      reading.rest where
  yields shallow := ⟨reading.shorter, if_pos shallow⟩
  tooDeep deep := by
    unfold limitDepth
    rw [if_neg deep]
    cases reading.rest with
    | nil => exact .error _ _
    | cons token rest => exact .error _ _

/-- Whatever a chain with the given tree on its left makes of the given tokens, reading the input
makes of all of it. -/
def Chains (finish : Position) (precedence : Nat) (operand : Reader Token Expr) (fits : Prop)
    (input : List Token) (left : Expr) (rest : List Token) : Prop :=
  ∀ ⦃more : Prop⦄ ⦃value : Expr⦄ ⦃final : List Token⦄,
    (∀ within : rest.length < input.length,
      Settles more (chain finish precedence operand left rest within) value final) →
    Settles (fits ∧ more) (level finish precedence operand input) value final

theorem Chains.start {left : Expr} (settles : Settles fits (operand input) left rest) :
    Chains finish precedence operand fits input left rest := by
  intro more value final goesOn
  refine settles.bind (fun fault same => by rw [level, same]) fun shorter same => ?_
  rw [level, same]
  exact goesOn shorter

theorem Chains.join {left right : Expr} {token : Token} {operator : Operator}
    (head : Chains finish precedence operand leftFits input left (token :: middle))
    (kind : operatorAt? precedence token = some operator)
    (next : Settles rightFits (operand middle) right rest) :
    Chains finish precedence operand
      ((leftFits ∧ rightFits) ∧ (Expr.binary operator left right).depth ≤ maxDepth)
      input (.binary operator left right) rest := by
  intro more value final goesOn
  rw [and_assoc, and_assoc]
  apply head
  intro within
  -- The chain reads its right operand and then checks the joined tree before it goes on.
  rw [chain]
  simp only [kind]
  refine next.bind (fun fault same => by simp only [same]) fun shorter same => ?_
  simp only [same]
  refine (settles_limitDepth finish ⟨.binary operator left right, rest, shorter⟩).bind
    (fun fault limit => by simp only [limit]) fun less limit => ?_
  simp only [limit]
  exact goesOn _

theorem Chains.settles {left : Expr}
    (chains : Chains finish precedence operand fits input left rest)
    (loose : hold rest < precedence) :
    Settles fits (level finish precedence operand input) left rest := by
  have stop : ∀ within : rest.length < input.length,
      Settles True (chain finish precedence operand left rest within) left rest := by
    intro within
    refine .of_yields trivial ⟨within, ?_⟩
    cases rest with
    | nil => rw [chain]
    | cons token rest =>
      rw [chain]
      simp only [operatorAt?_of_hold_lt loose]
  have whole := chains stop
  rwa [and_true] at whole

def Runs (finish : Position) (atom : Reader Token Expr) (fits : Prop) (input : List Token)
    (callee : Expr) (arguments : List Expr) (rest : List Token) : Prop :=
  ∀ ⦃more : Prop⦄ ⦃values : List Expr⦄ ⦃final : List Token⦄, values ≠ [] →
    (∀ within : rest.length < input.length,
      Settles more (run atom arguments.reverse rest within) values final) →
    Settles ((fits ∧ more) ∧ (Expr.application callee values).depth ≤ maxDepth)
      (application finish atom input) (.application callee values) final

theorem Runs.start {callee : Expr} (settles : Settles fits (atom input) callee rest) :
    Runs finish atom fits input callee [] rest := by
  intro more values final some goesOn
  rw [and_assoc]
  -- First comes the callee, then the run, and the depth of the whole is checked last.
  refine settles.bind (fun fault same => by rw [application, same]) fun shorter same => ?_
  rw [application, same]
  refine (goesOn shorter).bind (fun fault read => ?_) fun less read => ?_
  · rw [List.reverse_nil] at read
    simp only [read]
  · rw [List.reverse_nil] at read
    simp only [read, List.isEmpty_iff, some, if_false]
    exact settles_limitDepth finish ⟨.application callee values, final, less⟩

theorem Runs.extend {callee argument : Expr} {arguments : List Expr}
    (head : Runs finish atom leftFits input callee arguments middle)
    (starts : startsAtom middle) (next : Settles rightFits (atom middle) argument rest) :
    Runs finish atom (leftFits ∧ rightFits) input callee (arguments ++ [argument]) rest := by
  intro more values final some goesOn
  simp only [List.reverse_concat] at goesOn
  rw [and_assoc (a := leftFits)]
  apply head some
  intro within
  -- One more step of the run takes the argument.
  rw [run, if_pos starts]
  refine next.bind (fun fault same => by rw [same]) fun shorter same => ?_
  rw [same]
  exact goesOn _

theorem run_stop {bound : Nat} {taken : List Expr} {within : rest.length < bound}
    (loose : hold rest < 3) : run atom taken rest within = .ok ⟨taken.reverse, rest, within⟩ := by
  rw [run, if_neg (by simp [startsAtom_of_hold_lt loose])]

theorem settles_application_of_lone {callee : Expr}
    (settles : Settles fits (atom input) callee rest) (loose : hold rest < 3) :
    Settles fits (application finish atom input) callee rest := by
  refine settles.map (fun fault same => by rw [application, same]) fun shorter same => ?_
  refine ⟨shorter, ?_⟩
  rw [application, same]
  simp only [run_stop loose]
  rfl

theorem Runs.settles {callee : Expr} {arguments : List Expr}
    (runs : Runs finish atom fits input callee arguments rest) (some : arguments ≠ [])
    (loose : hold rest < 3) :
    Settles (fits ∧ (Expr.application callee arguments).depth ≤ maxDepth)
      (application finish atom input) (.application callee arguments) rest := by
  have stop : ∀ within : rest.length < input.length,
      Settles True (run atom arguments.reverse rest within) arguments rest := by
    intro within
    refine .of_yields trivial ⟨within, ?_⟩
    rw [run_stop loose, List.reverse_reverse]
  have whole := runs some stop
  rwa [and_true] at whole

theorem settles_parentheses {opening closing : Token} {expr : Expr} {inner : Reader Token Expr}
    (opens : opening.kind = .opening) (closes : closing.kind = .closing)
    (settles : Settles fits (inner middle) expr (closing :: rest)) :
    Settles fits (Infix.atom finish (some inner) (opening :: middle)) expr rest := by
  refine settles.map (fun fault same => by simp only [Infix.atom, opens, same]) fun shorter same => ?_
  have bound : rest.length < (opening :: middle).length := by
    simp only [List.length_cons] at shorter ⊢
    omega
  refine ⟨bound, ?_⟩
  simp only [Infix.atom, opens, same, expect, closes, if_true]

theorem tooDeep_parentheses {opening : Token} (opens : opening.kind = .opening) :
    TooDeep (Infix.atom finish none (opening :: rest)) := by
  simp only [Infix.atom, opens]
  cases rest with
  | nil => exact .error _ _
  | cons token rest => exact .error _ _

end Loops

def inside (finish : Position) : Nat → Option (Reader Token Expr)
  | 0 => none
  | room + 1 => some (expression finish room)

def reader (finish : Position) (room : Nat) : Level → Reader Token Expr
  | .sum => sum finish (atom finish (inside finish room))
  | .product => level finish 2 (application finish (atom finish (inside finish room)))
  | .application | .run => application finish (atom finish (inside finish room))
  | .atom => atom finish (inside finish room)

theorem expression_eq_reader (finish : Position) (room : Nat) :
    expression finish room = reader finish room .sum := by
  cases room <;> rfl

/-- What reading an input comes to when its first tokens derive the tree at the level. The tokens
after them must not hold on to the tree more tightly than the level allows. -/
def Reads (finish : Position) (room : Nat) (level : Level) (input rest : List Token)
    (expr : Expr) (nesting : Nat) : Prop :=
  match level with
  | .sum => hold rest < 2 →
    Chains finish 1 (reader finish room .product) (Fits room expr nesting) input expr rest
  | .product => hold rest < 3 →
    Chains finish 2 (reader finish room .application) (Fits room expr nesting) input expr rest
  | .application => hold rest < 3 →
    Settles (Fits room expr nesting) (reader finish room .application input) expr rest
  | .run => ∃ callee arguments, expr = .application callee arguments ∧ arguments ≠ [] ∧
    Runs finish (reader finish room .atom) (PartsFit room expr nesting) input callee arguments
      rest
  | .atom => Settles (Fits room expr nesting) (reader finish room .atom input) expr rest

/-- Reading follows every derivation. -/
theorem Derives.reads (finish : Position) {level : Level} {tokens : List Token} {expr : Expr}
    {nesting : Nat} (derives : Derives level tokens expr nesting) (room : Nat) (rest : List Token) :
    Reads finish room level (tokens ++ rest) rest expr nesting := by
  -- The rest is general because what follows a part is the next part.
  induction derives generalizing room rest with
  | name kind =>
    refine .of_yields (fits_leaf room rfl) ⟨by simp, ?_⟩
    simp only [reader, List.singleton_append, atom, kind]
  | @integer token value kind numeral =>
    have same := (Text.Integer.read?_eq_some_iff_numeral numeral.1 value).2 numeral
    refine .of_yields (fits_leaf room rfl) ⟨by simp, ?_⟩
    simp only [reader, List.singleton_append, atom, kind, same]
  | @parentheses opening closing tokens expr nesting opens closes inner ih =>
    have shape : opening :: (tokens ++ [closing]) ++ rest =
        opening :: (tokens ++ closing :: rest) := by simp
    have loose : hold (closing :: rest) = 0 := by simp [hold, closes]
    rw [shape]
    cases room with
    | zero => exact ⟨fun fits => absurd fits.1 (by omega), fun _ => tooDeep_parentheses opens⟩
    | succ room =>
      have settles := (ih room (closing :: rest) (by omega)).settles (by omega)
      rw [Reads, fits_parentheses_iff]
      refine settles_parentheses opens closes ?_
      rw [expression_eq_reader]
      exact settles
  | apply head next headIh nextIh =>
    -- An atom after an atom goes on with a run, so no hold on what follows is asked for.
    rw [List.append_assoc]
    refine ⟨_, [_], rfl, List.cons_ne_nil _ _, ?_⟩
    rw [partsFit_apply_iff]
    exact (Runs.start (headIh room _)).extend (next.startsAtom rest) (nextIh room rest)
  | extend head next headIh nextIh =>
    rw [List.append_assoc]
    obtain ⟨callee, arguments, same, some, runs⟩ := headIh room _
    cases same
    refine ⟨_, _, rfl, List.append_ne_nil_of_left_ne_nil some _, ?_⟩
    rw [partsFit_extend_iff]
    exact runs.extend (next.startsAtom rest) (nextIh room rest)
  | lone atom ih =>
    intro loose
    exact settles_application_of_lone (ih room rest) loose
  | run atoms ih =>
    intro loose
    obtain ⟨callee, arguments, same, some, runs⟩ := ih room rest
    cases same
    rw [fits_application_iff]
    exact runs.settles some loose
  | factor application ih =>
    intro loose
    exact Chains.start (ih room rest loose)
  | @multiply left right token operator first last m n head kind multiplies next headIh nextIh =>
    intro loose
    rw [List.append_assoc, List.cons_append, fits_binary_iff]
    have precedence : operator.precedence = 2 := by rcases multiplies with rfl | rfl <;> rfl
    have follows : hold (token :: (right ++ rest)) = 2 := precedence ▸ hold_operator kind _
    exact (headIh room _ (by omega)).join (precedence ▸ operatorAt?_precedence kind)
      (nextIh room rest loose)
  | term product ih =>
    intro loose
    exact Chains.start ((ih room rest (by omega)).settles loose)
  | @add left right token operator first last m n head kind adds next headIh nextIh =>
    intro loose
    -- The operator of the sum ends the product before it.
    rw [List.append_assoc, List.cons_append, fits_binary_iff]
    have precedence : operator.precedence = 1 := by rcases adds with rfl | rfl <;> rfl
    have follows : hold (token :: (right ++ rest)) = 1 := precedence ▸ hold_operator kind _
    exact (headIh room _ (by omega)).join (precedence ▸ operatorAt?_precedence kind)
      ((nextIh room rest (by omega)).settles loose)

/-- An expression is read from its tokens exactly within the limits, whatever follows them that does
not go on with it. -/
theorem Derives.settles (finish : Position) (room : Nat) {tokens rest : List Token} {expr : Expr}
    {nesting : Nat} (derives : Derives .sum tokens expr nesting) (loose : hold rest = 0) :
    Settles (Fits room expr nesting) (expression finish room (tokens ++ rest)) expr rest := by
  rw [expression_eq_reader]
  exact (derives.reads finish room rest (by omega)).settles (by omega)

theorem yields_expect (place : Position) {kind : Token.Kind} {token : Token}
    {tokens rest : List Token} (shape : tokens = token :: rest) (same : token.kind = kind) :
    Yields (expect place kind tokens) token rest := by
  subst shape
  exact ⟨by simp, if_pos same⟩

theorem isEnd_of_expectEnd {place : Position} {kind : Token.Kind} {rest : List Token}
    (read : expectEnd place kind rest = .ok ()) : ∀ token ∈ rest.head?, token.kind.isEnd := by
  cases rest with
  | nil => exact nofun
  | cons token rest =>
    rintro _ ⟨⟩
    by_cases ends : token.kind.isEnd
    · exact ends
    · simp [expectEnd, ends] at read

theorem expectEnd_of_isEnd {place : Position} {kind : Token.Kind} {rest : List Token}
    (ends : ∀ token ∈ rest.head?, token.kind.isEnd) : expectEnd place kind rest = .ok () := by
  cases rest with
  | nil => rfl
  | cons token rest => exact if_pos (ends token rfl)

theorem hold_of_head_isEnd {rest : List Token} (ends : ∀ token ∈ rest.head?, token.kind.isEnd) :
    hold rest = 0 := by
  cases rest with
  | nil => rfl
  | cons token rest => exact hold_of_isEnd (ends token rfl) rest

end ShaderDefs.Infix
