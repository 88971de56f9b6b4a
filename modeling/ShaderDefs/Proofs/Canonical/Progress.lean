import Mathlib.Data.List.Basic
import ShaderDefs.Proofs.Canonical.Soundness

/-! How far a canonical text has come. What the next atom may be depends on which lists are open and on
what each of them still needs. A machine with these states follows the atoms of every tree within the
depth limit, and whatever it follows to the end stands for a tree. -/

set_option autoImplicit false

namespace ShaderDefs.Canonical

inductive Inside where
  | nothing
  /-- An operator. So many operands are missing. -/
  | operator (missing : Nat)
  /-- A callee without arguments. -/
  | callee
  /-- A callee with at least one argument. -/
  | arguments

def Inside.take? : Inside → Option Inside
  | .nothing => some .callee
  | .operator 0 => none
  | .operator (missing + 1) => some (.operator missing)
  | .callee => some .arguments
  | .arguments => some .arguments

def Inside.isComplete : Inside → Bool
  | .operator 0 => true
  | .arguments => true
  | _ => false

/-- The open lists, the innermost first, and the whole text around them. -/
inductive Progress where
  /-- No list is open. So many expressions are missing. -/
  | whole (missing : Nat)
  | list (inside : Inside) (outer : Progress)

namespace Progress

def nested : Progress → Nat
  | .whole _ => 0
  | .list _ outer => outer.nested + 1

def take? : Progress → Option Progress
  | .whole 0 => none
  | .whole (missing + 1) => some (.whole missing)
  | .list inside outer => inside.take?.map (.list · outer)

def takes : Nat → Progress → Option Progress
  | 0, state => some state
  | count + 1, state => state.take?.bind (takes count)

def operate? : Progress → Option Progress
  | .list .nothing outer => some (.list (.operator 2) outer)
  | _ => none

def stepWord (state : Progress) (text : String) : Option Progress :=
  match operatorWord? text, readWord text with
  | some _, _ => state.operate?
  | none, .ok _ => state.take?
  | none, .error _ => none

/-- What an atom makes of the state, if it may come next. No more lists than the limit may be open. An
opened list counts as an expression of the list around it. -/
def step (limit : Nat) (state : Progress) : Atom → Option Progress
  | .opening => if state.nested < limit then state.take?.map (.list .nothing) else none
  | .closing =>
    match state with
    | .whole _ => none
    | .list inside outer => if inside.isComplete then some outer else none
  | .word text => state.stepWord text

def run (limit : Nat) (state : Progress) (atoms : List Atom) : Option Progress :=
  atoms.foldlM (step limit) state

variable {limit : Nat} {state next outer : Progress} {atom : Atom} {front atoms rest : List Atom}

theorem run_nil (limit : Nat) (state : Progress) : run limit state [] = some state := rfl

theorem run_cons (limit : Nat) (state : Progress) (atom : Atom) (rest : List Atom) :
    run limit state (atom :: rest) = (step limit state atom).bind (run limit · rest) :=
  List.foldlM_cons

theorem run_append (limit : Nat) (state : Progress) (front rest : List Atom) :
    run limit state (front ++ rest) = (run limit state front).bind (run limit · rest) :=
  List.foldlM_append

theorem run_singleton (limit : Nat) (state : Progress) (atom : Atom) :
    run limit state [atom] = step limit state atom := by
  rw [run_cons]
  cases step limit state atom <;> rfl

theorem nested_of_take? (takes : state.take? = some next) : next.nested = state.nested := by
  cases state with
  | whole missing =>
    cases missing with
    | zero => cases takes
    | succ missing =>
      cases takes
      rfl
  | list inside outer =>
    obtain ⟨further, _, rfl⟩ := Option.map_eq_some_iff.1 takes
    rfl

theorem step_leaf {text : String} {leaf : Expr} (read : readWord text = .ok leaf) :
    step limit state (.word text) = state.take? := by
  simp [step, stepWord, operatorWord?_eq_none_of_readWord read, read]

theorem step_operator {operator : Operator} :
    step limit (.list .nothing outer) (.word operator.symbol.toString) =
      some (.list (.operator 2) outer) := by
  cases operator <;> rfl

theorem stepWord_eq_some {text : String} (steps : state.stepWord text = some next) :
    (∃ operator : Operator, text = operator.symbol.toString ∧ state.operate? = some next) ∨
      ∃ leaf, readWord text = .ok leaf ∧ state.take? = some next := by
  unfold stepWord at steps
  cases known : operatorWord? text with
  | some operator =>
    rw [known] at steps
    exact .inl ⟨operator, operatorWord?_eq_some_iff.1 known, steps⟩
  | none =>
    cases read : readWord text with
    | ok leaf =>
      rw [known, read] at steps
      exact .inr ⟨leaf, rfl, steps⟩
    | error fault =>
      rw [known, read] at steps
      cases steps

theorem stepWord_eq_none {text : String} (noOperator : operatorWord? text ≠ none → state.operate? = none)
    (noLeaf : ∀ leaf, readWord text = .ok leaf → state.take? = none) : state.stepWord text = none := by
  rw [Option.eq_none_iff_forall_ne_some]
  intro next steps
  rcases stepWord_eq_some steps with ⟨operator, rfl, operates⟩ | ⟨leaf, read, takes⟩
  · have isOperator := operatorWord?_eq_some_iff.2 (Eq.refl operator.symbol.toString)
    rw [noOperator (isOperator ▸ Option.some_ne_none operator)] at operates
    cases operates
  · rw [noLeaf leaf read] at takes
    cases takes

theorem operate?_eq_some (operates : state.operate? = some next) :
    ∃ outer, state = .list .nothing outer ∧ next = .list (.operator 2) outer := by
  unfold operate? at operates
  split at operates
  next outer => exact ⟨outer, rfl, (Option.some.inj operates).symm⟩
  next => cases operates

theorem run_list {inside : Inside} {inner : List Atom} {depth : Nat} (complete : inside.isComplete)
    (fills : ∀ next : Progress, next.nested < limit → run limit (.list .nothing next) inner =
      if next.nested + 1 + depth ≤ limit then some (.list inside next) else none) :
    run limit state (.opening :: (inner ++ .closing :: rest)) =
      if state.nested + (depth + 1) ≤ limit then state.take?.bind (run limit · rest) else none := by
  rw [run_cons, step]
  by_cases room : state.nested < limit
  · rw [if_pos room]
    cases takes : state.take? with
    | none => simp
    | some next =>
      have same := nested_of_take? takes
      -- What fits into the list is what fits around it, one level less.
      rw [Option.map_some, Option.bind_some, run_append, fills next (by omega), Option.bind_some, same,
        Nat.add_right_comm, Nat.add_assoc]
      by_cases enough : state.nested + (depth + 1) ≤ limit
      · rw [if_pos enough, if_pos enough, Option.bind_some, run_cons, step, if_pos complete,
          Option.bind_some]
      · rw [if_neg enough, if_neg enough, Option.bind_none]
  · rw [if_neg room, if_neg (by omega), Option.bind_none]

theorem takes_arguments (count : Nat) (outer : Progress) :
    takes count (.list .arguments outer) = some (.list .arguments outer) := by
  induction count with
  | zero => rfl
  | succ count ih => exact ih

theorem bind_run_of_take? {count nesting : Nat}
    (others : ∀ next : Progress, next.nested ≤ limit → run limit next rest =
      if next.nested + nesting ≤ limit then takes count next else none)
    (fits : state.nested ≤ limit) :
    state.take?.bind (run limit · rest) =
      if state.nested + nesting ≤ limit then takes (count + 1) state else none := by
  cases first : state.take? with
  | none => simp [takes, first]
  | some next =>
    have same := nested_of_take? first
    rw [Option.bind_some, others next (by omega), same, takes, first, Option.bind_some]

theorem run_list_and_rest {inside : Inside} {inner : List Atom} {depth count nesting : Nat}
    (complete : inside.isComplete)
    (fills : ∀ next : Progress, next.nested < limit → run limit (.list .nothing next) inner =
      if next.nested + 1 + depth ≤ limit then some (.list inside next) else none)
    (others : ∀ next : Progress, next.nested ≤ limit → run limit next rest =
      if next.nested + nesting ≤ limit then takes count next else none)
    (fits : state.nested ≤ limit) :
    run limit state (.opening :: (inner ++ .closing :: rest)) =
      if state.nested + max (depth + 1) nesting ≤ limit then takes (count + 1) state else none := by
  -- A list and what comes after it need room apart from each other.
  rw [run_list complete fills, bind_run_of_take? others fits, ← Nat.add_max_add_left]
  by_cases enough : state.nested + (depth + 1) ≤ limit
  · simp only [Nat.max_le, enough, true_and, if_true]
  · simp only [Nat.max_le, enough, false_and, if_false]

theorem run_replicate (limit count : Nat) (state : Progress) :
    run limit state (List.replicate count (.word "x")) = takes count state := by
  induction count generalizing state with
  | zero => rfl
  | succ count ih =>
    have read : readWord "x" = .ok (.identifier "x") := by decide +kernel
    rw [List.replicate_succ, run_cons, step_leaf read, takes]
    congr 1
    funext next
    exact ih next

theorem takes_operator (missing : Nat) (outer : Progress) :
    takes missing (.list (.operator missing) outer) = some (.list (.operator 0) outer) := by
  induction missing with
  | zero => rfl
  | succ missing ih => exact ih

theorem takes_whole (missing : Nat) : takes missing (.whole missing) = some (.whole 0) := by
  induction missing with
  | zero => rfl
  | succ missing ih => exact ih

theorem exists_takes_complete (inside : Inside) (outer : Progress) :
    ∃ count complete, takes count (.list inside outer) = some (.list complete outer) ∧
      complete.isComplete := by
  cases inside with
  | nothing => exact ⟨2, .arguments, rfl, rfl⟩
  | operator missing => exact ⟨missing, .operator 0, takes_operator missing outer, rfl⟩
  | callee => exact ⟨1, .arguments, rfl, rfl⟩
  | arguments => exact ⟨0, .arguments, rfl, rfl⟩

/-- Whatever lists are open, they can be filled and closed. -/
theorem exists_run_eq_done (limit : Nat) (state : Progress) :
    ∃ more, run limit state more = some (.whole 0) := by
  induction state with
  | whole missing => exact ⟨_, (run_replicate limit missing _).trans (takes_whole missing)⟩
  | list inside outer ih =>
    obtain ⟨more, finishes⟩ := ih
    obtain ⟨count, inside', fills, complete⟩ := exists_takes_complete inside outer
    refine ⟨List.replicate count (.word "x") ++ .closing :: more, ?_⟩
    rw [run_append, run_replicate, fills, Option.bind_some, run_cons, step, if_pos complete,
      Option.bind_some, finishes]

end Progress

open Progress (run takes)

/-- The machine takes the trees that the atoms stand for one after the other, within the limit. -/
theorem Denotes.run_eq {limit : Nat} {atoms : List Atom} {exprs : List Expr} {nesting : Nat}
    (denotes : Denotes atoms exprs nesting) {state : Progress} (fits : state.nested ≤ limit) :
    run limit state atoms =
      if state.nested + nesting ≤ limit then takes exprs.length state else none := by
  -- General in the state, since the atoms of a list are taken in a list that is open.
  induction denotes generalizing state with
  | nil => rw [Nat.add_zero, if_pos fits]; rfl
  | integer signed _ ih =>
    rw [Progress.run_cons, Progress.step_leaf (readWord_of_signedNumeral signed)]
    exact Progress.bind_run_of_take? (fun next => ih) fits
  | name named _ ih =>
    rw [Progress.run_cons, Progress.step_leaf (readWord_of_isName named)]
    exact Progress.bind_run_of_take? (fun next => ih) fits
  | @binary operator left right inner rest exprs depth nesting _ _ operandsIh ih =>
    have complete : Inside.isComplete (.operator 0) := rfl
    rw [← List.cons_append]
    refine Progress.run_list_and_rest complete (fun next room => ?_) (fun next => ih) fits
    have operands := @operandsIh (.list (.operator 2) next) room
    rwa [Progress.run_cons, Progress.step_operator, Option.bind_some]
  | @application callee argument arguments inner rest exprs depth nesting _ _ itemsIh ih =>
    have complete : Inside.isComplete .arguments := rfl
    refine Progress.run_list_and_rest complete (fun next room => ?_) (fun next => ih) fits
    have items := @itemsIh (.list .nothing next) room
    rwa [← Progress.takes_arguments arguments.length next]

theorem Denotes.run_callee {limit : Nat} {front inner : List Atom} {callee : Expr} {nesting : Nat}
    (denotes : Denotes inner [callee] nesting) {state next : Progress}
    (goes : run limit state (front ++ .opening :: inner) = some next) :
    nesting ≤ limit ∧ ∃ outer, next = .list .callee outer := by
  rw [Progress.run_append, Option.bind_eq_some_iff] at goes
  obtain ⟨around, _, goes⟩ := goes
  rw [Progress.run_cons, Option.bind_eq_some_iff] at goes
  obtain ⟨inside, opens, goes⟩ := goes
  obtain ⟨room, counts⟩ := Option.ite_none_right_eq_some.1 opens
  obtain ⟨outer, takes, rfl⟩ := Option.map_eq_some_iff.1 counts
  have fits : (Progress.list .nothing outer).nested ≤ limit := by
    rw [Progress.nested, Progress.nested_of_take? takes]
    exact room
  rw [denotes.run_eq fits, Option.ite_none_right_eq_some] at goes
  obtain ⟨enough, same⟩ := goes
  exact ⟨by omega, outer, (Option.some.inj same).symm⟩

inductive Inside.Holds : Inside → List Atom → Prop where
  | nothing : Holds .nothing []
  | operator {operator : Operator} {atoms : List Atom} {exprs : List Expr} {nesting missing : Nat}
      (denotes : Denotes atoms exprs nesting) (count : exprs.length + missing = 2) :
      Holds (.operator missing) (.word operator.symbol.toString :: atoms)
  | callee {atoms : List Atom} {expr : Expr} {nesting : Nat} (denotes : Denotes atoms [expr] nesting) :
      Holds .callee atoms
  | arguments {atoms : List Atom} {callee argument : Expr} {others : List Expr} {nesting : Nat}
      (denotes : Denotes atoms (callee :: argument :: others) nesting) : Holds .arguments atoms

inductive Reached : List Atom → Progress → Prop where
  | whole {atoms : List Atom} {exprs : List Expr} {nesting missing : Nat}
      (denotes : Denotes atoms exprs nesting) (count : exprs.length + missing = 1) :
      Reached atoms (.whole missing)
  | list {front inner : List Atom} {around outer : Progress} {inside : Inside}
      (reached : Reached front around) (takes : around.take? = some outer) (holds : inside.Holds inner) :
      Reached (front ++ .opening :: inner) (.list inside outer)

section Reached

variable {limit : Nat} {state next : Progress} {inside after : Inside} {front atoms rest : List Atom}
variable {atom : Atom} {expr : Expr} {nesting : Nat}

theorem Inside.Holds.take (holds : inside.Holds front) (denotes : Denotes atoms [expr] nesting)
    (takes : inside.take? = some after) : after.Holds (front ++ atoms) := by
  cases holds with
  | nothing =>
    cases takes
    exact .callee denotes
  | @operator operator front exprs _ missing before count =>
    cases missing with
    | zero => cases takes
    | succ missing =>
      cases takes
      refine .operator (before.append denotes) ?_
      simp only [List.length_append, List.length_singleton]
      omega
  | callee before =>
    cases takes
    exact .arguments (before.append denotes)
  | arguments before =>
    cases takes
    exact .arguments (before.append denotes)

theorem Inside.Holds.exists_denotes (holds : inside.Holds atoms) (complete : inside.isComplete) :
    ∃ expr nesting, Denotes (.opening :: (atoms ++ [.closing])) [expr] nesting := by
  cases holds with
  | nothing => cases complete
  | @operator operator front exprs nesting missing denotes count =>
    cases missing with
    | zero =>
      obtain ⟨left, right, rfl⟩ := List.length_eq_two.1 count
      exact ⟨_, _, .binary denotes .nil⟩
    | succ missing => cases complete
  | callee denotes => cases complete
  | arguments denotes => exact ⟨_, _, .application denotes .nil⟩

theorem Reached.take (reached : Reached front state) (denotes : Denotes atoms [expr] nesting)
    (takes : state.take? = some next) : Reached (front ++ atoms) next := by
  cases reached with
  | @whole _ exprs _ missing before count =>
    cases missing with
    | zero => cases takes
    | succ missing =>
      cases takes
      refine .whole (before.append denotes) ?_
      simp only [List.length_append, List.length_singleton]
      omega
  | list outside around holds =>
    obtain ⟨after, further, rfl⟩ := Option.map_eq_some_iff.1 takes
    rw [List.append_assoc, List.cons_append]
    exact .list outside around (holds.take denotes further)

theorem Reached.step (reached : Reached front state) (steps : Progress.step limit state atom = some next) :
    Reached (front ++ [atom]) next := by
  cases atom with
  | opening =>
    obtain ⟨_, opens⟩ := Option.ite_none_right_eq_some.1 steps
    obtain ⟨outer, takes, rfl⟩ := Option.map_eq_some_iff.1 opens
    exact .list reached takes .nothing
  | closing =>
    cases reached with
    | whole => cases steps
    | list outside around holds =>
      obtain ⟨complete, same⟩ := Option.ite_none_right_eq_some.1 steps
      cases same
      obtain ⟨expr, nesting, denotes⟩ := holds.exists_denotes complete
      have whole := outside.take denotes around
      rwa [← List.cons_append, ← List.append_assoc] at whole
  | word text =>
    rcases Progress.stepWord_eq_some steps with ⟨operator, rfl, operates⟩ | ⟨leaf, read, takes⟩
    · -- The list that the operator stands in holds nothing else yet.
      obtain ⟨outer, rfl, rfl⟩ := Progress.operate?_eq_some operates
      cases reached with
      | list outside around holds =>
      cases holds
      rw [List.append_assoc]
      exact .list outside around (.operator .nil rfl)
    · exact reached.take (denotes_leaf read) takes

theorem Reached.run (reached : Reached front state) (goes : Progress.run limit state atoms = some next) :
    Reached (front ++ atoms) next := by
  induction atoms generalizing front state with
  | nil =>
    cases goes
    rwa [List.append_nil]
  | cons atom rest ih =>
    rw [Progress.run_cons] at goes
    obtain ⟨middle, steps, further⟩ := Option.bind_eq_some_iff.1 goes
    rw [List.append_cons]
    exact ih (reached.step steps) further

end Reached

/-- The machine follows atoms to the end exactly if they stand for one tree within the limit. -/
theorem run_eq_done_iff {limit : Nat} {atoms : List Atom} :
    run limit (.whole 1) atoms = some (.whole 0) ↔
      ∃ expr nesting, nesting ≤ limit ∧ Denotes atoms [expr] nesting := by
  have start : (Progress.whole 1).nested ≤ limit := Nat.zero_le limit
  constructor
  · intro goes
    have reached : Reached atoms (.whole 0) := (Reached.whole .nil rfl).run goes
    cases reached with
    | @whole _ exprs nesting _ denotes count =>
      obtain ⟨expr, rfl⟩ := List.length_eq_one_iff.1 count
      rw [denotes.run_eq start, Option.ite_none_right_eq_some] at goes
      exact ⟨expr, nesting, by simpa [Progress.nested] using goes.1, denotes⟩
  · rintro ⟨expr, nesting, within, denotes⟩
    rw [denotes.run_eq start, if_pos (by simpa [Progress.nested] using within)]
    rfl

end ShaderDefs.Canonical
