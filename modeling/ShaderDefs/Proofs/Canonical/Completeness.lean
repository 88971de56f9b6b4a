import ShaderDefs.Proofs.Canonical.Grammar
import ShaderDefs.Proofs.Canonical.Word
import ShaderDefs.Proofs.Reading

/-! Reading what the grammar denotes. Atoms that stand for a tree are read to exactly that tree and no
further as long as their lists nest within the room. With less room the fault says so. -/

set_option autoImplicit false

namespace ShaderDefs.Canonical

open Reading (Yields TooDeep Settles)

/-- Reading the input item by item settles the trees one after the other, up to the rest. -/
inductive Row (item : Reader Atom Expr) (rest : List Atom) : Prop → List Atom → List Expr → Prop where
  | nil : Row item rest True rest []
  | cons {fits more : Prop} {input middle : List Atom} {expr : Expr} {exprs : List Expr}
      (head : Settles fits (item input) expr middle) (tail : Row item rest more middle exprs) :
      Row item rest (fits ∧ more) input (expr :: exprs)

variable {item : Reader Atom Expr} {fits : Prop} {input rest : List Atom} {room : Nat}

theorem Row.settles {expr : Expr} (row : Row item rest fits input [expr]) :
    Settles fits (item input) expr rest := by
  cases row with
  | cons head tail =>
  cases tail
  rwa [and_true]

theorem yields_word {text : String} {leaf : Expr} (read : readWord text = .ok leaf) :
    Yields (expression room (.word text :: rest)) leaf rest := by
  refine ⟨by simp, ?_⟩
  rw [expression, read]

theorem readWord_error {text : String} {fault : Fault} (read : readWord text = .error fault) :
    fault = stop .fittingInteger text ∨ fault = stop .leaf text := by
  unfold readWord at read
  split at read
  next =>
    split at read
    · cases read
    · exact .inl (Except.error.inj read).symm
  split at read
  · cases read
  · exact .inr (Except.error.inj read).symm

theorem exists_cons_of_settles {expr : Expr}
    (settles : Settles fits (expression room input) expr rest) :
    ∃ first tail, input = first :: tail ∧ first ≠ .closing ∧
      ∀ text, first = .word text → ∃ leaf, readWord text = .ok leaf := by
  -- In every other case the reader fails, and not for want of room.
  have refuted : ∀ expected found, expected ≠ .shallowExpression →
      expression room input ≠ .error (stop expected found) := by
    intro expected found other same
    by_cases holds : fits
    · obtain ⟨_, yields⟩ := settles.yields holds
      rw [same] at yields
      cases yields
    · obtain ⟨_, _, deep⟩ := settles.tooDeep holds
      rw [same] at deep
      cases deep
      exact other rfl
  cases input with
  | nil => exact absurd (by rw [expression]) (refuted .expression "" nofun)
  | cons first tail =>
    refine ⟨first, tail, rfl, ?_, ?_⟩
    · rintro rfl
      exact refuted .expression ")" nofun (by rw [expression])
    · rintro text rfl
      cases read : readWord text with
      | ok leaf => exact ⟨leaf, rfl⟩
      | error fault =>
        rcases readWord_error read with rfl | rfl
        · exact absurd (by rw [expression, read]) (refuted .fittingInteger text nofun)
        · exact absurd (by rw [expression, read]) (refuted .leaf text nofun)

theorem arguments_cons {first : Atom} {bound : Nat} (taken : List Expr)
    (within : (first :: input).length < bound) (more : first ≠ .closing) :
    arguments item taken (first :: input) within =
      match item (first :: input) with
      | .error fault => .error fault
      | .ok next =>
        arguments item (next.value :: taken) next.rest (Nat.lt_trans next.shorter within) := by
  rw [arguments]
  · cases item (first :: input) <;> rfl
  · exact more

theorem Row.arguments {exprs : List Expr} (row : Row (expression room) (.closing :: rest) fits input exprs)
    {bound : Nat} (taken : List Expr) (within : input.length < bound) :
    Settles fits (Canonical.arguments (expression room) taken input within) (taken.reverse ++ exprs)
      (.closing :: rest) := by
  induction row generalizing taken bound with
  | nil =>
    refine .of_yields trivial ⟨within, ?_⟩
    rw [Canonical.arguments, List.append_nil]
  | @cons fits more input middle expr exprs head tail ih =>
    -- An argument does not begin with the parenthesis that would end the list.
    obtain ⟨first, input, rfl, opens, _⟩ := exists_cons_of_settles head
    rw [arguments_cons taken within opens]
    refine head.bind (fun fault same => by rw [same]) fun shorter same => ?_
    rw [same]
    simpa using ih (expr :: taken) (Nat.lt_trans shorter within)

theorem Row.binary {operator : Operator} {left right : Expr}
    (row : Row item rest fits input [left, right]) :
    Settles fits (Canonical.binary item operator input) (.binary operator left right) rest := by
  cases row with
  | cons head tail =>
  cases tail with
  | cons next tail =>
  cases tail
  rw [and_true]
  refine head.bind (fun fault same => by rw [Canonical.binary, same]) fun shorter same => ?_
  rw [Canonical.binary, same]
  refine next.map (fun fault same => by simp only [same]) fun less same => ?_
  exact ⟨Nat.lt_trans less shorter, by simp only [same]⟩

theorem items_eq_application {expr : Expr}
    (head : Settles fits (expression room input) expr rest) :
    items item input = application item input := by
  obtain ⟨first, tail, rfl, _, readable⟩ := exists_cons_of_settles head
  cases first with
  | word text =>
    obtain ⟨leaf, read⟩ := readable text rfl
    simp only [items, operatorWord?_eq_none_of_readWord read]
  | opening => rfl
  | closing => rfl

theorem Row.application {callee argument : Expr} {arguments : List Expr}
    (row : Row (expression room) (.closing :: rest) fits input (callee :: argument :: arguments)) :
    Settles fits (items (expression room) input) (.application callee (argument :: arguments))
      (.closing :: rest) := by
  cases row with
  | cons head tail =>
  -- The callee is an expression, so no operator comes first.
  rw [items_eq_application head]
  refine head.bind (fun fault same => by rw [Canonical.application, same]) fun shorter same => ?_
  rw [Canonical.application, same]
  refine (tail.arguments [] shorter).map (fun fault same => by simp only [same]) fun less same => ?_
  refine ⟨less, ?_⟩
  simp only [same]
  rfl

theorem settles_items_operator {operator : Operator} {expr : Expr}
    (settles : Settles fits (Canonical.binary item operator input) expr rest) :
    Settles fits (items item (.word operator.symbol.toString :: input)) expr rest := by
  have isOperator := operatorWord?_eq_some_iff.2 (rfl : operator.symbol.toString = _)
  refine settles.map (fun fault same => ?_) fun shorter same => ?_
  · simp only [items, isOperator, same]
  · refine ⟨Nat.lt_succ_of_lt shorter, ?_⟩
    simp only [items, isOperator, same]

theorem settles_list {expr : Expr}
    (settles : Settles fits (items (expression room) input) expr (.closing :: rest)) :
    Settles fits (expression (room + 1) (.opening :: input)) expr rest := by
  refine settles.map (fun fault same => ?_) fun shorter same => ?_
  · simp only [expression, same]
  · have bound : rest.length < (Atom.opening :: input).length := by
      simp only [List.length_cons] at shorter ⊢
      omega
    refine ⟨bound, ?_⟩
    simp only [expression, same]

/-- Reading follows every denotation. -/
theorem Denotes.row {atoms : List Atom} {exprs : List Expr} {nesting : Nat}
    (denotes : Denotes atoms exprs nesting) (room : Nat) (rest : List Atom) :
    Row (expression room) rest (nesting ≤ room) (atoms ++ rest) exprs := by
  -- The room is general because a list leaves less of it to its items.
  induction denotes generalizing room rest with
  | nil =>
    rw [eq_true (Nat.zero_le room)]
    exact .nil
  | @integer _ _ _ _ nesting signed _ ih =>
    rw [← true_and (nesting ≤ room)]
    exact .cons (.of_yields trivial (yields_word (readWord_of_signedNumeral signed))) (ih room rest)
  | @name _ _ _ nesting named _ ih =>
    rw [← true_and (nesting ≤ room)]
    exact .cons (.of_yields trivial (yields_word (readWord_of_isName named))) (ih room rest)
  | @binary operator left right inner after exprs depth nesting _ _ operandsIh ih =>
    rw [Nat.max_le]
    refine .cons ?_ (ih room rest)
    -- Without room left the list itself is one too many.
    cases room with
    | zero => exact ⟨fun holds => absurd holds (by omega), fun _ => .error _ _⟩
    | succ room =>
      rw [Nat.add_le_add_iff_right]
      rw [List.cons_append, List.cons_append, List.append_assoc, List.cons_append]
      apply settles_list
      apply settles_items_operator
      exact (operandsIh room (.closing :: (after ++ rest))).binary
  | @application callee argument arguments inner after exprs depth nesting _ _ itemsIh ih =>
    rw [Nat.max_le]
    refine .cons ?_ (ih room rest)
    cases room with
    | zero => exact ⟨fun holds => absurd holds (by omega), fun _ => .error _ _⟩
    | succ room =>
      rw [Nat.add_le_add_iff_right]
      rw [List.cons_append, List.append_assoc, List.cons_append]
      apply settles_list
      exact (itemsIh room (.closing :: (after ++ rest))).application

theorem Denotes.settles {atoms : List Atom} {expr : Expr} {nesting : Nat}
    (denotes : Denotes atoms [expr] nesting) (room : Nat) (rest : List Atom) :
    Settles (nesting ≤ room) (expression room (atoms ++ rest)) expr rest :=
  (denotes.row room rest).settles

end ShaderDefs.Canonical
