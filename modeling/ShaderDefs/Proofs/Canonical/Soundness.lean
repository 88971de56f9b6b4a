import ShaderDefs.Proofs.Canonical.Grammar
import ShaderDefs.Proofs.Canonical.Word

/-! What is read from atoms is denoted by them. The reader never uses up atoms that the grammar does
not allow, and never more room than it has. -/

set_option autoImplicit false

namespace ShaderDefs.Canonical

/-- The first atoms of the input, up to the rest, stand for the trees within the room. -/
def Denoted (room : Nat) (input : List Atom) (exprs : List Expr) (rest : List Atom) : Prop :=
  ∃ atoms nesting, input = atoms ++ rest ∧ Denotes atoms exprs nesting ∧ nesting ≤ room

def Sound (room : Nat) (item : Reader Atom Expr) : Prop :=
  ∀ ⦃input : List Atom⦄ ⦃reading : Reading Atom Expr input.length⦄,
    item input = .ok reading → Denoted room input [reading.value] reading.rest

variable {room bound : Nat} {item : Reader Atom Expr} {input middle rest : List Atom}

theorem Denoted.nil : Denoted room input [] input :=
  ⟨[], 0, rfl, .nil, Nat.zero_le room⟩

theorem Denoted.append {first last : List Expr} (head : Denoted room input first middle)
    (tail : Denoted room middle last rest) : Denoted room input (first ++ last) rest := by
  obtain ⟨front, left, rfl, denotesFront, leftEnough⟩ := head
  obtain ⟨back, right, rfl, denotesBack, rightEnough⟩ := tail
  exact ⟨front ++ back, max left right, (List.append_assoc ..).symm, denotesFront.append denotesBack,
    Nat.max_le.2 ⟨leftEnough, rightEnough⟩⟩

theorem Denoted.list (head : List Atom) {exprs : List Expr} {expr : Expr}
    (items : Denoted room input exprs (.closing :: rest))
    (rule : ∀ {inner depth}, Denotes inner exprs depth →
      Denotes (head ++ (inner ++ [.closing])) [expr] (max (depth + 1) 0)) :
    Denoted (room + 1) (head ++ input) [expr] rest := by
  obtain ⟨inner, depth, rfl, denotes, enough⟩ := items
  refine ⟨head ++ (inner ++ [.closing]), max (depth + 1) 0, by simp, rule denotes, ?_⟩
  omega

theorem denoted_arguments (sound : Sound room item) {taken : List Expr}
    {within : input.length < bound} {reading : Reading Atom (List Expr) bound}
    (read : arguments item taken input within = .ok reading) :
    ∃ exprs, reading.value = taken.reverse ++ exprs ∧ Denoted room input exprs reading.rest := by
  -- What is taken stands in reverse in front of what is still to be read.
  fun_induction arguments item taken input within with
  | case1 taken within =>
    cases read
    exact ⟨[], (List.append_nil _).symm, .nil⟩
  | case2 taken rest within =>
    cases read
    exact ⟨[], (List.append_nil _).symm, .nil⟩
  | case3 => cases read
  | case4 taken first rest _ _ next readNext within ih =>
    obtain ⟨exprs, value, denoted⟩ := ih read
    exact ⟨next.value :: exprs, by simpa using value, (sound readNext).append denoted⟩

theorem denoted_binary (sound : Sound room item) {operator : Operator}
    {reading : Reading Atom Expr input.length} (read : binary item operator input = .ok reading) :
    ∃ left right, reading.value = .binary operator left right ∧
      Denoted room input [left, right] reading.rest := by
  unfold binary at read
  split at read
  next => cases read
  next left readLeft =>
  split at read
  next => cases read
  next right readRight =>
  cases read
  exact ⟨left.value, right.value, rfl, (sound readLeft).append (sound readRight)⟩

theorem denoted_application (sound : Sound room item) {reading : Reading Atom Expr input.length}
    (read : application item input = .ok reading) :
    ∃ callee argument arguments, reading.value = .application callee (argument :: arguments) ∧
      Denoted room input (callee :: argument :: arguments) reading.rest := by
  unfold application at read
  split at read
  next => cases read
  next callee readCallee =>
  split at read
  next => cases read
  next others readOthers =>
  split at read
  next => cases read
  next some =>
  cases read
  obtain ⟨exprs, value, denoted⟩ := denoted_arguments sound readOthers
  cases exprs with
  | nil => simp [value] at some
  | cons argument arguments =>
    -- The empty list of arguments has been refused above.
    refine ⟨callee.value, argument, arguments, ?_, (sound readCallee).append denoted⟩
    exact congrArg _ value

theorem denoted_list (sound : Sound room item) {reading : Reading Atom Expr input.length}
    (read : items item input = .ok reading) (closes : reading.rest = .closing :: rest) :
    Denoted (room + 1) (.opening :: input) [reading.value] rest := by
  -- Whatever does not begin with an operator is read as an application.
  have application : ∀ {other : Reading Atom Expr input.length},
      application item input = .ok other → other.rest = .closing :: rest →
      Denoted (room + 1) ([.opening] ++ input) [other.value] rest := by
    intro other read closes
    obtain ⟨callee, argument, arguments, value, denoted⟩ := denoted_application sound read
    rw [closes] at denoted
    rw [value]
    exact denoted.list [.opening] fun denotes => .application denotes .nil
  unfold items at read
  split at read
  next text rest' _ =>
    split at read
    next operator isOperator =>
      split at read
      next => cases read
      next other readOther =>
      cases read
      obtain ⟨left, right, value, denoted⟩ := denoted_binary sound readOther
      rw [show other.rest = _ from closes] at denoted
      obtain rfl := operatorWord?_eq_some_iff.1 isOperator
      rw [value]
      exact denoted.list [.opening, .word operator.symbol.toString]
        fun denotes => .binary denotes .nil
    next => exact application read closes
  next => exact application read closes

theorem denotes_leaf {text : String} {leaf : Expr} (read : readWord text = .ok leaf) :
    Denotes [.word text] [leaf] 0 := by
  rcases signedNumeral_or_isName_of_readWord read with ⟨value, signed, rfl⟩ | ⟨named, rfl⟩
  · exact .integer signed .nil
  · exact .name named .nil

theorem denoted_leaf {text : String} {leaf : Expr} (read : readWord text = .ok leaf) :
    Denoted room (.word text :: rest) [leaf] rest :=
  ⟨[.word text], 0, rfl, denotes_leaf read, Nat.zero_le room⟩

theorem sound_of_opening
    (list : ∀ {rest : List Atom} {reading : Reading Atom Expr (Atom.opening :: rest).length},
      expression room (.opening :: rest) = .ok reading →
        Denoted room (.opening :: rest) [reading.value] reading.rest) :
    Sound room (expression room) := by
  intro input reading read
  -- Only at an opening parenthesis does the room matter.
  cases input with
  | nil =>
    rw [expression] at read
    cases read
  | cons first rest =>
    cases first with
    | opening => exact list read
    | closing =>
      rw [expression] at read
      cases read
    | word text =>
      rw [expression] at read
      split at read
      next => cases read
      next leaf readLeaf =>
      cases read
      exact denoted_leaf readLeaf

/-- An expression that is read is denoted by the atoms used up. -/
theorem sound_expression (room : Nat) : Sound room (expression room) := by
  induction room with
  | zero =>
    apply sound_of_opening
    intro rest reading read
    rw [expression] at read
    cases read
  | succ room ih =>
    apply sound_of_opening
    intro rest reading read
    rw [expression] at read
    split at read
    next => cases read
    next items readItems =>
    split at read
    next after closes =>
      cases read
      exact denoted_list ih readItems closes
    next => cases read
    next => cases read

end ShaderDefs.Canonical
