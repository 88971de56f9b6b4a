import ShaderDefs.Proofs.Canonical.RoundTrip

/-! Reading accepts exactly the grammar, and printing what was read gives a normal form. The atoms of
the normal form are those of the text but for the integers, which lose their leading zeros and the
sign of zero. -/

set_option autoImplicit false

namespace ShaderDefs.Canonical

/-- An integer in canonical decimal, and any other atom as it is. -/
def Atom.normal : Atom → Atom
  | .word text =>
    if isIntegerWord text.toList then
      .word (((Text.Integer.read? text).map Text.Integer.write).getD text)
    else .word text
  | atom => atom

@[simp] theorem normal_opening : Atom.opening.normal = .opening := rfl

@[simp] theorem normal_closing : Atom.closing.normal = .closing := rfl

theorem normal_of_signedNumeral {text : String} {value : Int64}
    (signed : Text.Integer.SignedNumeral text value) :
    (Atom.word text).normal = .word (Text.Integer.write value) := by
  simp [Atom.normal, isIntegerWord_of_signedNumeral signed, Text.Integer.read?_of_signedNumeral signed]

theorem normal_of_isName {text : String} (named : Text.IsName text) :
    (Atom.word text).normal = .word text := by
  simp [Atom.normal, not_isIntegerWord_of_isName named]

theorem normal_operator (operator : Operator) :
    (Atom.word operator.symbol.toString).normal = .word operator.symbol.toString := by
  cases operator <;> rfl

theorem Denotes.atomsOfAll_eq {atoms : List Atom} {exprs : List Expr} {nesting : Nat}
    (denotes : Denotes atoms exprs nesting) : Expr.atomsOfAll exprs = atoms.map Atom.normal := by
  induction denotes with
  | nil => rfl
  | integer signed _ ih =>
    simp [Expr.atomsOfAll, Expr.atoms, normal_of_signedNumeral signed, ih]
  | name named _ ih =>
    simp [Expr.atomsOfAll, Expr.atoms, normal_of_isName named, ih]
  | @binary operator left right inner rest _ _ _ _ _ operandsIh ih =>
    -- What stands between the parentheses is in normal form already.
    have operands : left.atoms ++ right.atoms = inner.map Atom.normal := by
      simpa [Expr.atomsOfAll] using operandsIh
    simp only [Expr.atomsOfAll, Expr.atoms, List.map_cons, List.map_append, normal_opening,
      normal_operator, normal_closing, ih, ← operands]
    simp
  | @application callee argument arguments inner rest _ _ _ _ _ itemsIh ih =>
    have items : callee.atoms ++ Expr.atomsOfAll (argument :: arguments) =
        inner.map Atom.normal := itemsIh
    rw [Expr.atomsOfAll, Expr.atoms, items, ih]
    simp

/-- A text, cut at white space once its parentheses stand alone, is read exactly if all its atoms
together stand for one tree whose lists nest within the depth limit. That tree is well formed, it is
printed with the atoms of the text in normal form, and it is read back from there. -/
theorem read_eq_ok_iff_denotes (text : String) (expr : Expr) :
    split text.toList = (cut (isolate text.toList)).map Atom.ofPiece ∧
      (read text = .ok expr ↔ ∃ nesting ≤ maxDepth, Denotes (split text.toList) [expr] nesting) ∧
      (read text = .ok expr → expr.WellFormed ∧
        split (expr.print .compact).toList = (split text.toList).map Atom.normal ∧
        read (expr.print .compact) = .ok expr) := by
  refine ⟨split_eq_cut _, readAtoms_eq_ok_iff, ?_⟩
  intro accepted
  obtain ⟨nesting, enough, denotes⟩ := readAtoms_eq_ok_iff.1 accepted
  have formed := denotes.wellFormed expr List.mem_cons_self
  have printed : split (expr.print .compact).toList = (split text.toList).map Atom.normal := by
    rw [split_print formed, ← denotes.atomsOfAll_eq]
    simp [Expr.atomsOfAll]
  refine ⟨formed, printed, ?_⟩
  -- The atoms may have changed, but not how deep the lists nest.
  have height : expr.height ≤ maxDepth := by
    have := denotes.nesting_eq
    simp only [Expr.heightOfAll, Nat.max_zero] at this
    omega
  rw [read_print_eq formed, readAtoms_eq_ok_iff]
  exact ⟨expr.height, height, denotes_atoms formed⟩

theorem read_print_difference_of_zeros :
    read "(- 007\t-0)" = .ok (.binary .subtract (.literal 7) (.literal 0)) ∧
      (Expr.binary .subtract (.literal 7) (.literal 0)).print .compact = "(- 7 0)" ∧
      read "(- 7 0)" = .ok (.binary .subtract (.literal 7) (.literal 0)) := by
  have accepted : read "(- 007\t-0)" = .ok (.binary .subtract (.literal 7) (.literal 0)) := by
    decide +kernel
  have printed : (Expr.binary .subtract (.literal 7) (.literal 0)).print .compact = "(- 7 0)" := by
    decide +kernel
  refine ⟨accepted, printed, ?_⟩
  rw [← printed]
  exact ((read_eq_ok_iff_denotes _ _).2.2 accepted).2.2

end ShaderDefs.Canonical
