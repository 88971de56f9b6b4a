import ShaderDefs.Proofs.Canonical.Completeness
import ShaderDefs.Proofs.Canonical.Soundness
import ShaderDefs.Proofs.Canonical.Splitting
import ShaderDefs.Proofs.Definition.Body

/-! Reading undoes printing. A well formed tree is read back from either layout as long as its lists
nest within the depth limit, and beyond it the fault says so. -/

set_option autoImplicit false

namespace ShaderDefs

namespace Canonical

open Reading (TooDeep)
open Text.Integer (SignedNumeral)

theorem isWordPart_of_isDigit {character : Char} (digit : character.isDigit) :
    isWordPart character := by
  have bounds := Text.toNat_of_isDigit digit
  apply isWordPart_of_toNat (by omega) (by omega)
  · rintro rfl
    simp at bounds
  · rintro rfl
    simp at bounds

theorem isWordPart_of_isAlpha {character : Char} (letter : character.isAlpha) :
    isWordPart character := by
  have bounds := Text.toNat_of_isAlpha letter
  apply isWordPart_of_toNat (by omega) (by omega)
  · rintro rfl
    simp at bounds
  · rintro rfl
    simp at bounds

theorem isWordPart_of_isDigits {digits : List Char} (decimal : Text.IsDigits digits) :
    ∀ character ∈ digits, isWordPart character :=
  fun character member => isWordPart_of_isDigit (decimal.2 character member)

theorem whole_of_signedNumeral {text : String} {value : Int64} (signed : SignedNumeral text value) :
    (Atom.word text).Whole := by
  rcases signed with ⟨decimal, _⟩ | ⟨digits, minus, decimal, _⟩
  · exact ⟨decimal.1, isWordPart_of_isDigits decimal⟩
  · rw [Atom.Whole, minus]
    refine ⟨List.cons_ne_nil _ _, List.forall_mem_cons.2 ⟨by decide, ?_⟩⟩
    exact isWordPart_of_isDigits decimal

theorem whole_of_isName {text : String} (named : Text.IsName text) : (Atom.word text).Whole := by
  obtain ⟨first, rest, same, starts, others⟩ := named
  rw [Atom.Whole, same]
  refine ⟨List.cons_ne_nil _ _, List.forall_mem_cons.2 ⟨?_, ?_⟩⟩
  · rcases starts with letter | rfl
    · exact isWordPart_of_isAlpha letter
    · decide
  · intro character member
    rcases others character member with alphanumeric | rfl
    · rcases Bool.or_eq_true_iff.1 alphanumeric with letter | digit
      · exact isWordPart_of_isAlpha letter
      · exact isWordPart_of_isDigit digit
    · decide

theorem whole_operator (operator : Operator) : (Atom.word operator.symbol.toString).Whole := by
  have part : isWordPart operator.symbol := by cases operator <;> decide
  have single : operator.symbol.toString.toList = [operator.symbol] := by simp
  rw [Atom.Whole, single]
  exact ⟨List.cons_ne_nil _ _, by simpa using part⟩

theorem Denotes.whole {atoms : List Atom} {exprs : List Expr} {nesting : Nat}
    (denotes : Denotes atoms exprs nesting) : ∀ atom ∈ atoms, atom.Whole := by
  induction denotes with
  | nil => exact nofun
  | integer signed _ ih => exact List.forall_mem_cons.2 ⟨whole_of_signedNumeral signed, ih⟩
  | name named _ ih => exact List.forall_mem_cons.2 ⟨whole_of_isName named, ih⟩
  | binary _ _ operandsIh ih =>
    refine List.forall_mem_cons.2 ⟨trivial, List.forall_mem_cons.2 ⟨whole_operator _, ?_⟩⟩
    rw [List.forall_mem_append]
    exact ⟨operandsIh, List.forall_mem_cons.2 ⟨trivial, ih⟩⟩
  | application _ _ itemsIh ih =>
    refine List.forall_mem_cons.2 ⟨trivial, ?_⟩
    rw [List.forall_mem_append]
    exact ⟨itemsIh, List.forall_mem_cons.2 ⟨trivial, ih⟩⟩

theorem split_print {expr : Expr} (formed : expr.WellFormed) (layout : Layout) :
    split (expr.print layout).toList = expr.atoms :=
  layout.split_render (denotes_atoms formed).whole

theorem readAtoms_eq_ok_iff {atoms : List Atom} {expr : Expr} :
    readAtoms atoms = .ok expr ↔ ∃ nesting ≤ maxDepth, Denotes atoms [expr] nesting := by
  constructor
  · intro read
    unfold readAtoms at read
    split at read
    next => cases read
    next reading readExpression =>
    obtain ⟨used, nesting, same, denotes, enough⟩ := sound_expression maxDepth readExpression
    split at read
    next none =>
      cases read
      rw [none, List.append_nil] at same
      exact ⟨nesting, enough, same ▸ denotes⟩
    next => cases read
  · rintro ⟨nesting, enough, denotes⟩
    have settles := denotes.settles maxDepth []
    rw [List.append_nil] at settles
    obtain ⟨_, read⟩ := settles.yields enough
    rw [readAtoms, read]

theorem tooDeep_readAtoms {atoms : List Atom} {expr : Expr} {nesting : Nat}
    (denotes : Denotes atoms [expr] nesting) (deep : maxDepth < nesting) :
    TooDeep (readAtoms atoms) := by
  have settles := denotes.settles maxDepth []
  rw [List.append_nil] at settles
  obtain ⟨position, found, read⟩ := settles.tooDeep (Nat.not_le.2 deep)
  refine ⟨position, found, ?_⟩
  rw [readAtoms, read]

theorem read_print_eq {expr : Expr} (formed : expr.WellFormed) (layout : Layout) :
    read (expr.print layout) = readAtoms expr.atoms := by
  rw [read, split_print formed]

theorem read_print_of_le {expr : Expr} (formed : expr.WellFormed) (layout : Layout)
    (low : expr.height ≤ maxDepth) : read (expr.print layout) = .ok expr := by
  rw [read_print_eq formed, readAtoms_eq_ok_iff]
  exact ⟨expr.height, low, denotes_atoms formed⟩

theorem tooDeep_read_print {expr : Expr} (formed : expr.WellFormed) (layout : Layout)
    (high : maxDepth < expr.height) : TooDeep (read (expr.print layout)) := by
  rw [read_print_eq formed]
  exact tooDeep_readAtoms (denotes_atoms formed) high

/-- A name applied to itself so many times, each time in a list of its own. -/
def tower : Nat → Expr
  | 0 => .identifier "f"
  | count + 1 => .application (.identifier "f") [tower count]

theorem height_tower (count : Nat) : (tower count).height = count := by
  induction count with
  | zero => rfl
  | succ count ih => simp [tower, Expr.height, Expr.heightOfAll, ih]

theorem wellFormed_tower (count : Nat) : (tower count).WellFormed := by
  have named : (Expr.identifier "f").WellFormed := .identifier ⟨'f', [], rfl, by decide, nofun⟩
  induction count with
  | zero => exact named
  | succ count ih => exact .application (List.cons_ne_nil _ _) named (by simpa using ih)

/-- A well formed tree is read back from both of its printed layouts up to the depth limit, and beyond it
the fault says in words what the limit is. So the body of every definition in a source text is read
back. -/
theorem read_print (layout : Layout) :
    (∀ expr : Expr, expr.WellFormed →
      (expr.height ≤ maxDepth → read (expr.print layout) = .ok expr) ∧
      (maxDepth < expr.height → ∃ position expected found,
        read (expr.print layout) = .error (.unexpected position expected found) ∧
          expected.phrase = "expression nested at most 256 deep")) ∧
    ∀ source : String, ∀ definition ∈ (Definition.recover (Token.ofText source)).definitions,
      read (definition.body.print layout) = .ok definition.body := by
  constructor
  · intro expr formed
    refine ⟨read_print_of_le formed layout, fun high => ?_⟩
    obtain ⟨position, found, refused⟩ := tooDeep_read_print formed layout high
    exact ⟨position, .shallowExpression, found, refused, Expectation.phrase_shallowExpression⟩
  · intro source definition member
    obtain ⟨formed, bounded⟩ := Definition.body_of_mem_recover member
    -- Within the depth limit the lists nest to one less than the limit.
    apply read_print_of_le formed layout
    have := definition.body.depth_eq_height_add_one
    omega

theorem read_print_tower :
    read ((tower maxDepth).print .compact) = .ok (tower maxDepth) ∧
      (∃ position expected found, read ((tower (maxDepth + 1)).print .spaced) =
        .error (.unexpected position expected found) ∧
          expected.phrase = "expression nested at most 256 deep") ∧
      ∃ definition ∈ (Definition.recover (Token.ofText "f x = x - 1\n")).definitions,
        read (definition.body.print .spaced) = .ok definition.body := by
  refine ⟨?_, ?_, ?_⟩
  · apply ((read_print .compact).1 _ (wellFormed_tower maxDepth)).1
    rw [height_tower]
  · apply ((read_print .spaced).1 _ (wellFormed_tower (maxDepth + 1))).2
    rw [height_tower]
    exact Nat.lt_succ_self maxDepth
  · have member := List.head_mem
      (show (Definition.recover (Token.ofText "f x = x - 1\n")).definitions ≠ [] by decide +kernel)
    exact ⟨_, member, (read_print .spaced).2 _ _ member⟩

end Canonical

end ShaderDefs
