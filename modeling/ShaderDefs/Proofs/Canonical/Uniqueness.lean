import ShaderDefs.Proofs.Canonical.RoundTrip

/-! Canonical text is unique. The atoms of a tree say where they end, whatever comes after them, so
different trees have different texts. There is no limit on depth: a reader with as much room as both
trees need reads the one as well as the other. -/

set_option autoImplicit false

namespace ShaderDefs.Canonical

/-- A value of the kind can be read off everything that begins with its atoms, and nothing else can be
read off it. -/
def ReadsOff {Value : Type} (formed : Value → Prop) (atoms : Value → List Atom) : Prop :=
  ∀ ⦃value other : Value⦄, formed value → formed other → ∀ ⦃rest others : List Atom⦄,
    atoms value ++ rest = atoms other ++ others → value = other ∧ rest = others

section ReadsOff

variable {Value : Type} {formed : Value → Prop} {atoms : Value → List Atom}

theorem ReadsOff.eq (readsOff : ReadsOff formed atoms) {value other : Value}
    (valueFormed : formed value) (otherFormed : formed other) (same : atoms value = atoms other) :
    value = other :=
  (readsOff valueFormed otherFormed (congrArg (· ++ []) same)).1

theorem ReadsOff.eq_of_flatMap_eq (readsOff : ReadsOff formed atoms)
    (some : ∀ value, atoms value ≠ []) {values others : List Value}
    (valuesFormed : ∀ value ∈ values, formed value) (othersFormed : ∀ value ∈ others, formed value)
    (same : values.flatMap atoms = others.flatMap atoms) : values = others := by
  induction values generalizing others with
  | nil =>
    cases others with
    | nil => rfl
    | cons other others => simp [some other] at same
  | cons value values ih =>
    cases others with
    | nil => simp [some value] at same
    | cons other others =>
      obtain ⟨valueFormed, moreFormed⟩ := List.forall_mem_cons.1 valuesFormed
      obtain ⟨otherFormed, moreOthersFormed⟩ := List.forall_mem_cons.1 othersFormed
      rw [List.flatMap_cons, List.flatMap_cons] at same
      obtain ⟨rfl, rest⟩ := readsOff valueFormed otherFormed same
      rw [ih moreFormed moreOthersFormed rest]

/-- A sequence is cut in one way only where a mark stands that is not in front of itself. -/
theorem eq_of_append_cons_eq {Item : Type} {mark : Item} {front others back rest : List Item}
    (noMark : mark ∉ front) (noOther : mark ∉ others)
    (same : front ++ mark :: back = others ++ mark :: rest) : front = others ∧ back = rest := by
  induction front generalizing others with
  | nil =>
    cases others with
    | nil => exact ⟨rfl, (List.cons.inj same).2⟩
    | cons other others => exact absurd (List.cons.inj same).1 (List.ne_of_not_mem_cons noOther)
  | cons first front ih =>
    cases others with
    | nil => exact absurd (List.cons.inj same).1.symm (List.ne_of_not_mem_cons noMark)
    | cons other others =>
      obtain ⟨rfl, tails⟩ := List.cons.inj same
      obtain ⟨rfl, backs⟩ := ih (List.not_mem_of_not_mem_cons noMark)
        (List.not_mem_of_not_mem_cons noOther) tails
      exact ⟨rfl, backs⟩

end ReadsOff

/-- Unique readability of trees. -/
theorem readsOff_atoms : ReadsOff Expr.WellFormed Expr.atoms := by
  intro value other valueFormed otherFormed rest others same
  have first := ((denotes_atoms valueFormed).settles (max value.height other.height) rest).yields
    (Nat.le_max_left _ _)
  have second := ((denotes_atoms otherFormed).settles (max value.height other.height) others).yields
    (Nat.le_max_right _ _)
  rw [same] at first
  exact first.eq second

theorem eq_of_print_eq {expr other : Expr} {layout otherLayout : Layout} (formed : expr.WellFormed)
    (otherFormed : other.WellFormed) (same : expr.print layout = other.print otherLayout) :
    expr = other := by
  refine readsOff_atoms.eq formed otherFormed ?_
  rw [← split_print formed layout, same, split_print otherFormed]

end ShaderDefs.Canonical
