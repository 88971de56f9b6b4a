import ShaderDefs.Proofs.Canonical.Progress
import ShaderDefs.Proofs.Canonical.RoundTrip

/-! Where reading canonical text stops. It stops at the first atom that no tree goes on with, or else at
the end, and the fault names that atom or nothing. There is one exception: if a list ends with its callee,
a closing parenthesis is named although there is none. -/

set_option autoImplicit false

namespace ShaderDefs.Canonical

open Progress (run takes)

def Progress.missing : Progress → Fault
  | .list .callee _ => stop .argument ")"
  | .list inside _ => if inside.isComplete then stop (.token .closing) "" else stop .expression ""
  | .whole _ => stop .expression ""

/-- The fault names the first atom that the machine refuses, or says what is missing where the atoms run
out. -/
inductive Stops (limit : Nat) (state : Progress) (input : List Atom) : Fault → Prop where
  | refused {front rest : List Atom} {atom : Atom} {stopped : Progress} (expected : Expectation)
      (shape : input = front ++ atom :: rest) (goes : run limit state front = some stopped)
      (refuses : stopped.step limit atom = none) : Stops limit state input (stop expected atom.text)
  | ranOut {stopped : Progress} (goes : run limit state input = some stopped) :
      Stops limit state input stopped.missing

variable {limit room : Nat} {state next outer : Progress} {front rest input : List Atom} {fault : Fault}

theorem Stops.here {atom : Atom} (expected : Expectation) (refuses : state.step limit atom = none) :
    Stops limit state (atom :: rest) (stop expected atom.text) :=
  .refused expected rfl (Progress.run_nil limit state) refuses

theorem Stops.append (goes : run limit state front = some next) (stops : Stops limit next rest fault) :
    Stops limit state (front ++ rest) fault := by
  cases stops with
  | @refused more left atom stopped expected shape further refuses =>
    have whole : front ++ rest = (front ++ more) ++ atom :: left := by
      rw [shape, List.append_assoc]
    refine .refused expected whole ?_ refuses
    rw [Progress.run_append, goes, Option.bind_some, further]
  | ranOut further =>
    apply Stops.ranOut
    rw [Progress.run_append, goes, Option.bind_some, further]

theorem Stops.cons {atom : Atom} (steps : state.step limit atom = some next)
    (stops : Stops limit next rest fault) : Stops limit state (atom :: rest) fault := by
  rw [← List.singleton_append]
  exact .append (by rw [Progress.run_singleton, steps]) stops

/-- An expression comes next, and whatever cannot begin one is refused. -/
structure Awaits (limit : Nat) (state : Progress) (input : List Atom) : Prop where
  takes : ∃ next, state.take? = some next
  atEnd : input = [] → state.missing = stop .expression ""
  atClosing : ∀ rest, input = .closing :: rest → state.step limit .closing = none
  atOperator : ∀ text rest, input = .word text :: rest → operatorWord? text ≠ none →
    state.operate? = none

theorem awaits_operator (missing : Nat) (input : List Atom) :
    Awaits limit (.list (.operator (missing + 1)) outer) input where
  takes := ⟨_, rfl⟩
  atEnd _ := rfl
  atClosing _ _ := rfl
  atOperator _ _ _ _ := rfl

theorem awaits_whole (missing : Nat) (input : List Atom) :
    Awaits limit (.whole (missing + 1)) input where
  takes := ⟨_, rfl⟩
  atEnd _ := rfl
  atClosing _ _ := rfl
  atOperator _ _ _ _ := rfl

theorem awaits_callee
    (noOperator : ∀ text rest, input = .word text :: rest → operatorWord? text = none) :
    Awaits limit (.list .nothing outer) input where
  takes := ⟨_, rfl⟩
  atEnd _ := rfl
  atClosing _ _ := rfl
  atOperator text rest shape isOperator := absurd (noOperator text rest shape) isOperator

theorem awaits_argument {first : Atom} {inside : Inside} (takes : inside.take? = some .arguments)
    (begun : inside ≠ .nothing) (more : first ≠ .closing) :
    Awaits limit (.list inside outer) (first :: rest) where
  takes := ⟨.list .arguments outer, by rw [Progress.take?, takes]; rfl⟩
  atEnd := nofun
  atClosing _ shape := absurd (List.cons.inj shape).1 more
  atOperator _ _ _ _ := by
    cases inside with
    | nothing => exact absurd rfl begun
    | _ => rfl

def StopsWith (limit room : Nat) (item : Reader Atom Expr) : Prop :=
  ∀ ⦃input : List Atom⦄ ⦃state : Progress⦄ ⦃fault : Fault⦄, state.nested + room = limit →
    Awaits limit state input → item input = .error fault → Stops limit state input fault

theorem Denoted.exists_run {exprs : List Expr} (denoted : Denoted room input exprs rest)
    (state next : Progress) (fits : state.nested + room = limit)
    (taken : takes exprs.length state = some next) :
    ∃ front, input = front ++ rest ∧ run limit state front = some next := by
  obtain ⟨front, nesting, shape, denotes, enough⟩ := denoted
  refine ⟨front, shape, ?_⟩
  rw [denotes.run_eq (by omega), if_pos (by omega), taken]

theorem Progress.step_eq_none {atom : Atom} (full : state.take? = none) (begun : state.operate? = none)
    (other : atom ≠ .closing) : state.step limit atom = none := by
  cases atom with
  | opening =>
    rw [step, full]
    split <;> rfl
  | closing => exact absurd rfl other
  | word text => exact stepWord_eq_none (fun _ => begun) fun _ _ => full

theorem eq_nil_or_closing_of_arguments {item : Reader Atom Expr} {bound : Nat}
    {within : input.length < bound} {taken : List Expr} {reading : Reading Atom (List Expr) bound}
    (read : arguments item taken input within = .ok reading) :
    reading.rest = [] ∨ ∃ after, reading.rest = .closing :: after := by
  fun_induction arguments item taken input within with
  | case1 =>
    cases read
    exact .inl rfl
  | case2 taken after within =>
    cases read
    exact .inr ⟨after, rfl⟩
  | case3 => cases read
  | case4 taken first rest _ _ next readNext within ih => exact ih read

section Readers

variable {item : Reader Atom Expr} (sound : Sound room item) (stopsWith : StopsWith limit room item)
include sound stopsWith

theorem stops_binary {operator : Operator} (fits : outer.nested + 1 + room = limit)
    (read : binary item operator input = .error fault) :
    Stops limit (.list (.operator 2) outer) input fault := by
  unfold binary at read
  split at read
  next readLeft =>
    cases read
    exact stopsWith fits (awaits_operator 1 input) readLeft
  next left readLeft =>
  obtain ⟨front, shape, goes⟩ := (sound readLeft).exists_run (.list (.operator 2) outer)
    (.list (.operator 1) outer) fits rfl
  split at read
  next readRight =>
    cases read
    rw [shape]
    exact .append goes (stopsWith fits (awaits_operator 0 left.rest) readRight)
  next => cases read

theorem stops_arguments {inside : Inside} (fits : outer.nested + 1 + room = limit)
    (further : inside.take? = some .arguments) (begun : inside ≠ .nothing) {bound : Nat}
    {taken : List Expr} {within : input.length < bound}
    (read : arguments item taken input within = .error fault) :
    Stops limit (.list inside outer) input fault := by
  -- The callee is followed by a first argument, and an argument by another one.
  fun_induction arguments item taken input within generalizing inside with
  | case1 => cases read
  | case2 => cases read
  | case3 taken first rest within more refused readNext =>
    cases read
    exact stopsWith fits (awaits_argument further begun more) readNext
  | case4 taken first rest within more next readNext _ ih =>
    obtain ⟨front, shape, goes⟩ := (sound readNext).exists_run (.list inside outer)
      (.list .arguments outer) fits (by simp [takes, Progress.take?, further])
    rw [shape]
    exact .append goes (ih rfl (by simp) read)

theorem stops_application (fits : outer.nested + 1 + room = limit)
    (noOperator : ∀ text rest, input = .word text :: rest → operatorWord? text = none)
    (read : application item input = .error fault) :
    Stops limit (.list .nothing outer) input fault := by
  unfold application at read
  split at read
  next readCallee =>
    cases read
    exact stopsWith fits (awaits_callee noOperator) readCallee
  next callee readCallee =>
  obtain ⟨front, shape, goes⟩ := (sound readCallee).exists_run (.list .nothing outer)
    (.list .callee outer) fits rfl
  rw [shape]
  refine .append goes ?_
  split at read
  next readOthers =>
    cases read
    exact stops_arguments sound stopsWith fits rfl (by simp) readOthers
  next others readOthers =>
  split at read
  next none =>
    cases read
    obtain ⟨exprs, same, used, nesting, whole, denotes, _⟩ := denoted_arguments sound readOthers
    obtain rfl : exprs = [] := by simpa [same] using none
    cases denotes
    -- So the callee is followed by nothing or by the parenthesis that ends the list.
    rw [List.nil_append] at whole
    rcases eq_nil_or_closing_of_arguments readOthers with atEnd | ⟨after, closes⟩
    · rw [whole, atEnd]
      exact .ranOut (Progress.run_nil limit (.list .callee outer))
    · rw [whole, closes]
      exact .here .argument rfl
  next => cases read

theorem stops_items (fits : outer.nested + 1 + room = limit)
    (read : items item input = .error fault) : Stops limit (.list .nothing outer) input fault := by
  unfold items at read
  split at read
  next text rest =>
    split at read
    next operator isOperator =>
      split at read
      next readOperands =>
        cases read
        obtain rfl := operatorWord?_eq_some_iff.1 isOperator
        exact .cons Progress.step_operator (stops_binary sound stopsWith fits readOperands)
      next => cases read
    next noOperator =>
      apply stops_application sound stopsWith fits _ read
      rintro _ _ ⟨⟩
      exact noOperator
  next input notWord =>
    apply stops_application sound stopsWith fits _ read
    rintro text rest rfl
    exact absurd rfl (notWord text rest)

end Readers

/-- The input up to the rest fills a list. After two operands only a closing parenthesis may come next,
and arguments go on up to a closing parenthesis. -/
inductive Fills (limit : Nat) (outer : Progress) (input rest : List Atom) : Prop where
  | operands {front : List Atom} (shape : input = front ++ rest)
      (goes : run limit (.list .nothing outer) front = some (.list (.operator 0) outer))
  | arguments {front : List Atom} (shape : input = front ++ rest)
      (goes : run limit (.list .nothing outer) front = some (.list .arguments outer))
      (ends : rest = [] ∨ ∃ after, rest = .closing :: after)

theorem Fills.ranOut (fills : Fills limit outer input []) :
    Stops limit (.list .nothing outer) input (stop (.token .closing) "") := by
  cases fills with
  | operands shape goes =>
    rw [shape, List.append_nil]
    exact .ranOut goes
  | arguments shape goes _ =>
    rw [shape, List.append_nil]
    exact .ranOut goes

theorem Fills.refused {atom : Atom} (fills : Fills limit outer input (atom :: rest))
    (other : atom ≠ .closing) :
    Stops limit (.list .nothing outer) input (stop (.token .closing) atom.text) := by
  cases fills with
  | operands shape goes => exact .refused _ shape goes (Progress.step_eq_none rfl rfl other)
  | arguments _ _ ends =>
    rcases ends with none | ⟨after, closes⟩
    · cases none
    · exact absurd (List.cons.inj closes).1 other

theorem fills_application {item : Reader Atom Expr} (sound : Sound room item)
    (fits : outer.nested + 1 + room = limit) {reading : Reading Atom Expr input.length}
    (read : application item input = .ok reading) : Fills limit outer input reading.rest := by
  obtain ⟨callee, argument, others, _, denoted⟩ := denoted_application sound read
  obtain ⟨front, shape, goes⟩ := denoted.exists_run (.list .nothing outer) (.list .arguments outer) fits
    (Progress.takes_arguments others.length outer)
  refine .arguments shape goes ?_
  unfold application at read
  split at read
  next => cases read
  next =>
  split at read
  next => cases read
  next readOthers =>
  split at read
  next => cases read
  next =>
  cases read
  exact eq_nil_or_closing_of_arguments readOthers

theorem fills_items {item : Reader Atom Expr} (sound : Sound room item)
    (fits : outer.nested + 1 + room = limit) {reading : Reading Atom Expr input.length}
    (read : items item input = .ok reading) : Fills limit outer input reading.rest := by
  unfold items at read
  split at read
  next text rest =>
    split at read
    next operator isOperator =>
      split at read
      next => cases read
      next operands readOperands =>
      cases read
      obtain rfl := operatorWord?_eq_some_iff.1 isOperator
      obtain ⟨left, right, _, denoted⟩ := denoted_binary sound readOperands
      obtain ⟨front, shape, goes⟩ := denoted.exists_run (.list (.operator 2) outer)
        (.list (.operator 0) outer) fits rfl
      have whole : .word operator.symbol.toString :: rest =
          (.word operator.symbol.toString :: front) ++ operands.rest := congrArg _ shape
      refine .operands whole ?_
      rw [Progress.run_cons, Progress.step_operator, Option.bind_some, goes]
    next => exact fills_application sound fits read
  next => exact fills_application sound fits read

theorem stopsWith_of_opening
    (list : ∀ {rest : List Atom} {state next : Progress} {fault : Fault}, state.nested + room = limit →
      state.take? = some next → expression room (.opening :: rest) = .error fault →
        Stops limit state (.opening :: rest) fault) :
    StopsWith limit room (expression room) := by
  intro input state fault fits awaits read
  -- Only at an opening parenthesis does the room matter.
  cases input with
  | nil =>
    rw [expression] at read
    cases read
    rw [← awaits.atEnd rfl]
    exact .ranOut (Progress.run_nil limit state)
  | cons first rest =>
    cases first with
    | opening =>
      obtain ⟨next, takes⟩ := awaits.takes
      exact list fits takes read
    | closing =>
      rw [expression] at read
      cases read
      exact .here .expression (awaits.atClosing rest rfl)
    | word text =>
      rw [expression] at read
      split at read
      next refused readLeaf =>
        cases read
        have refuses : state.step limit (.word text) = none := by
          apply Progress.stepWord_eq_none (awaits.atOperator text rest rfl)
          intro leaf same
          rw [readLeaf] at same
          cases same
        rcases readWord_error readLeaf with rfl | rfl
        · exact .here .fittingInteger refuses
        · exact .here .leaf refuses
      next => cases read

theorem stopsWith_expression (limit room : Nat) : StopsWith limit room (expression room) := by
  induction room with
  | zero =>
    apply stopsWith_of_opening
    intro rest state next fault fits takes read
    rw [expression] at read
    cases read
    refine .here .shallowExpression ?_
    rw [Progress.step, if_neg (by omega)]
  | succ room ih =>
    apply stopsWith_of_opening
    intro rest state next fault fits takes read
    have opens : state.step limit .opening = some (.list .nothing next) := by
      rw [Progress.step, if_pos (by omega), takes]
      rfl
    have inside : next.nested + 1 + room = limit := by
      rw [Progress.nested_of_take? takes]
      omega
    refine .cons opens ?_
    -- The fault arises inside the list, or else where the list should be closed.
    rw [expression] at read
    split at read
    next readItems =>
      cases read
      exact stops_items (sound_expression room) ih inside readItems
    next items readItems =>
    have fills := fills_items (sound_expression room) inside readItems
    split at read
    next => cases read
    next none =>
      cases read
      rw [none] at fills
      exact fills.ranOut
    next other after more shape =>
      cases read
      rw [shape] at fills
      exact fills.refused more

theorem stops_readAtoms {atoms : List Atom} (read : readAtoms atoms = .error fault) :
    Stops maxDepth (.whole 1) atoms fault := by
  unfold readAtoms at read
  split at read
  next readExpression =>
    cases read
    exact stopsWith_expression maxDepth maxDepth (Nat.zero_add _) (awaits_whole 0 atoms) readExpression
  next reading readExpression =>
  obtain ⟨front, shape, goes⟩ := (sound_expression maxDepth readExpression).exists_run (.whole 1)
    (.whole 0) (Nat.zero_add _) rfl
  split at read
  next => cases read
  next extra after more =>
    cases read
    rw [more] at shape
    refine .refused _ shape goes ?_
    -- Nothing may come after the one expression, not even a closing parenthesis.
    cases extra with
    | closing => rfl
    | opening => exact Progress.step_eq_none rfl rfl nofun
    | word text => exact Progress.step_eq_none rfl rfl nofun

/-- Some text that is read begins with these atoms. -/
def Begins (atoms : List Atom) : Prop :=
  ∃ more expr, readAtoms (atoms ++ more) = .ok expr

theorem Begins.of_append (begins : Begins (front ++ rest)) : Begins front := by
  obtain ⟨more, expr, read⟩ := begins
  exact ⟨rest ++ more, expr, by rwa [← List.append_assoc]⟩

/-- The atom is the first one with which no text that is read goes on. -/
def RefusedAt (atoms : List Atom) (atom : Atom) : Prop :=
  ∃ front rest, atoms = front ++ atom :: rest ∧ Begins front ∧ ¬Begins (front ++ [atom])

theorem RefusedAt.mem {atoms : List Atom} {atom : Atom} (here : RefusedAt atoms atom) : atom ∈ atoms := by
  obtain ⟨front, rest, rfl, _⟩ := here
  exact List.mem_append_right front List.mem_cons_self

/-- The atoms end in a list that is open and holds one expression so far, which is its callee. -/
def EndsInCallee (atoms : List Atom) : Prop :=
  ∃ front inner callee, atoms = front ++ .opening :: inner ∧ readAtoms inner = .ok callee

theorem run_eq_done_iff_readAtoms {atoms : List Atom} :
    run maxDepth (.whole 1) atoms = some (.whole 0) ↔ ∃ expr, readAtoms atoms = .ok expr := by
  simp only [run_eq_done_iff, readAtoms_eq_ok_iff]

theorem begins_iff {atoms : List Atom} :
    Begins atoms ↔ ∃ state, run maxDepth (.whole 1) atoms = some state := by
  simp only [Begins, ← run_eq_done_iff_readAtoms, Progress.run_append]
  constructor
  · rintro ⟨more, finishes⟩
    obtain ⟨state, goes, _⟩ := Option.bind_eq_some_iff.1 finishes
    exact ⟨state, goes⟩
  · rintro ⟨state, goes⟩
    obtain ⟨more, finishes⟩ := Progress.exists_run_eq_done maxDepth state
    exact ⟨more, by rw [goes, Option.bind_some, finishes]⟩

theorem endsInCallee_iff {atoms : List Atom} (goes : run maxDepth (.whole 1) atoms = some state) :
    EndsInCallee atoms ↔ ∃ outer, state = .list .callee outer := by
  constructor
  · rintro ⟨front, inner, callee, rfl, read⟩
    obtain ⟨nesting, _, denotes⟩ := readAtoms_eq_ok_iff.1 read
    exact (denotes.run_callee goes).2
  · rintro ⟨outer, rfl⟩
    have reached : Reached atoms (.list .callee outer) := (Reached.whole .nil rfl).run goes
    cases reached with
    | @list front inner _ _ _ _ _ holds =>
      cases holds with
      | @callee _ callee nesting denotes =>
        have within := (denotes.run_callee goes).1
        exact ⟨front, inner, callee, rfl, readAtoms_eq_ok_iff.2 ⟨nesting, within, denotes⟩⟩

theorem Progress.missing_eq (state : Progress) :
    (∃ outer, state = .list .callee outer) ∧ state.missing = stop .argument ")" ∨
      (¬∃ outer, state = .list .callee outer) ∧ ∃ expected, state.missing = stop expected "" := by
  cases state with
  | whole => exact .inr ⟨nofun, .expression, rfl⟩
  | list inside outer =>
    cases inside with
    | nothing => exact .inr ⟨nofun, .expression, rfl⟩
    | callee => exact .inl ⟨⟨outer, rfl⟩, rfl⟩
    | arguments => exact .inr ⟨nofun, .token .closing, rfl⟩
    | operator missing =>
      cases missing with
      | zero => exact .inr ⟨nofun, .token .closing, rfl⟩
      | succ => exact .inr ⟨nofun, .expression, rfl⟩

/-- A text that is refused either begins a text that is read, so that its atoms ran out, or is refused at
an atom. -/
theorem readAtoms_error {atoms : List Atom} (read : readAtoms atoms = .error fault) :
    (Begins atoms ∧ EndsInCallee atoms ∧ fault = stop .argument ")") ∨
    (Begins atoms ∧ ¬EndsInCallee atoms ∧ ∃ expected, fault = stop expected "") ∨
    (¬Begins atoms ∧ ∃ expected atom, RefusedAt atoms atom ∧ fault = stop expected atom.text) := by
  cases stops_readAtoms read with
  | @refused front rest atom stopped expected shape goes refuses =>
    have refused : run maxDepth (.whole 1) (front ++ [atom]) = none := by
      rw [Progress.run_append, goes, Option.bind_some, Progress.run_singleton, refuses]
    have never : ¬Begins (front ++ [atom]) := by simp [begins_iff, refused]
    have here : RefusedAt atoms atom := ⟨front, rest, shape, begins_iff.2 ⟨stopped, goes⟩, never⟩
    refine .inr (.inr ⟨?_, expected, atom, here, rfl⟩)
    intro begins
    rw [shape, List.append_cons] at begins
    exact never begins.of_append
  | @ranOut stopped goes =>
    have begins := begins_iff.2 ⟨stopped, goes⟩
    rw [endsInCallee_iff goes]
    rcases stopped.missing_eq with ⟨callee, missing⟩ | ⟨noCallee, missing⟩
    · exact .inl ⟨begins, callee, missing⟩
    · exact .inr (.inl ⟨begins, noCallee, missing⟩)

/-- The fault of a text that is refused names the first atom with which no text that is read goes on. If
every atom goes on, so that the atoms ran out, it names nothing, unless the text ends in a callee: then a
closing parenthesis is named, although none is there. -/
theorem read_error_names_stop {text : String} {fault : Fault}
    (refused : read text = .error fault) :
    let atoms := split text.toList
    ∃ expected found, fault = .unexpected .start expected found ∧
      (found = "" ↔ Begins atoms ∧ ¬EndsInCallee atoms) ∧
      (Begins atoms → EndsInCallee atoms → expected = .argument ∧ found = ")") ∧
      (¬Begins atoms → ∃ atom, RefusedAt atoms atom ∧ found = atom.text) := by
  intro atoms
  rcases readAtoms_error refused with
    ⟨begins, callee, rfl⟩ | ⟨begins, noCallee, expected, rfl⟩ | ⟨never, expected, atom, here, rfl⟩
  · refine ⟨.argument, ")", rfl, ?_, fun _ _ => ⟨rfl, rfl⟩, fun never => absurd begins never⟩
    exact iff_of_false (by decide) fun ran => ran.2 callee
  · exact ⟨expected, "", rfl, iff_of_true rfl ⟨begins, noCallee⟩,
      fun _ callee => absurd callee noCallee, fun never => absurd begins never⟩
  · have member : atom ∈ split text.toList := here.mem
    have some : atom.text ≠ "" := (whole_of_mem_split member).text_ne_empty
    exact ⟨expected, atom.text, rfl, iff_of_false some fun ran => never ran.1,
      fun begins => absurd begins never, fun _ => ⟨atom, here, rfl⟩⟩

theorem read_error_names_third_operand :
    (read "(+ a b c)" = .error (.unexpected .start (.token .closing) "c") ∧
      ∃ atom, RefusedAt (split "(+ a b c)".toList) atom ∧ "c" = atom.text) ∧
    (read "(f (+ a" = .error (.unexpected .start .expression "") ∧
      Begins (split "(f (+ a".toList)) := by
  have third : read "(+ a b c)" = .error (.unexpected .start (.token .closing) "c") := by
    decide +kernel
  have short : read "(f (+ a" = .error (.unexpected .start .expression "") := by decide +kernel
  refine ⟨⟨third, ?_⟩, short, ?_⟩
  · obtain ⟨_, _, same, nothing, afterCallee, atAtom⟩ := read_error_names_stop third
    cases same
    apply atAtom
    intro begins
    by_cases callee : EndsInCallee (split "(+ a b c)".toList)
    · exact absurd (afterCallee begins callee).1 nofun
    · exact absurd (nothing.2 ⟨begins, callee⟩) (by decide)
  · obtain ⟨_, _, same, nothing, _⟩ := read_error_names_stop short
    cases same
    exact (nothing.1 rfl).1

/-- The atoms of this text ran out, and the fault names a parenthesis that is not among them. -/
theorem read_error_names_missing_parenthesis :
    read "(f" = .error (.unexpected .start .argument ")") ∧
      Begins (split "(f".toList) ∧ ∀ atom ∈ split "(f".toList, atom.text ≠ ")" := by
  have atoms : split "(f".toList = [.opening, .word "f"] := by decide +kernel
  refine ⟨by decide +kernel, ?_, ?_⟩
  · rw [atoms]
    refine ⟨[.word "x", .closing], .application (.identifier "f") [.identifier "x"], ?_⟩
    decide +kernel
  · rw [atoms]
    decide

end ShaderDefs.Canonical
