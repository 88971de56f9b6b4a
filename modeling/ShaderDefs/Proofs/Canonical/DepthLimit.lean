import ShaderDefs.Proofs.Canonical.RoundTrip
import ShaderDefs.Proofs.Infix.Text

/-! The two depth limits. The infix reader counts the nodes on the way down to a leaf, and the
canonical reader only the lists, so the canonical reader also takes the trees that are one deeper. -/

set_option autoImplicit false

namespace ShaderDefs.Canonical

open Reading (TooDeep)

theorem denotes_height {atoms : List Atom} {expr : Expr} {nesting : Nat}
    (denotes : Denotes atoms [expr] nesting) : nesting = expr.height := by
  simpa [Expr.heightOfAll] using denotes.nesting_eq

theorem infix_read_write {expr : Expr} (formed : expr.WellFormed) (unsigned : expr.Unsigned) :
    (expr.depth ≤ maxDepth → Infix.read (Token.ofText expr.write) = .ok expr) ∧
      (maxDepth < expr.depth → TooDeep (Infix.read (Token.ofText expr.write))) := by
  obtain ⟨nesting, low, writes⟩ := Expr.exists_writes_words formed unsigned 1
  have deeper := expr.depth_eq_height_add_one
  obtain ⟨yields, tooDeep⟩ := Infix.read_of_writes writes
  constructor
  · intro shallow
    exact yields ⟨by omega, shallow⟩
  · intro deep
    exact tooDeep fun fits => absurd fits.2 (by omega)

theorem unsigned_tower (count : Nat) : (tower count).Unsigned := by
  intro value member
  induction count with
  | zero => simp [tower, Expr.nodes] at member
  | succ count ih =>
    apply ih
    simpa [tower, Expr.nodes, Expr.nodesOfAll] using member

theorem depth_tower (count : Nat) : (tower count).depth = count + 1 := by
  rw [Expr.depth_eq_height_add_one, height_tower]

/-- A tree that is read is at most one deeper than the depth limit, and it is within the limit unless
the lists of the text nest to the limit. A well formed tree is read from its printed form exactly up
to one beyond the limit, but by the infix reader, from the text without redundant parentheses, only
within it. -/
theorem read_depth (expr : Expr) :
    (∀ text : String, read text = .ok expr →
      expr.depth ≤ maxDepth + 1 ∧
        (expr.depth ≤ maxDepth ↔ ¬Denotes (split text.toList) [expr] maxDepth)) ∧
    (expr.WellFormed →
      (∀ layout : Layout,
        (∃ other, read (expr.print layout) = .ok other) ↔ expr.depth ≤ maxDepth + 1) ∧
      (expr.Unsigned →
        (expr.depth ≤ maxDepth → Infix.read (Token.ofText expr.write) = .ok expr) ∧
        (maxDepth < expr.depth → ∃ position found, Infix.read (Token.ofText expr.write) =
          .error (.unexpected position .shallowExpression found)))) := by
  have deeper := expr.depth_eq_height_add_one
  constructor
  · intro text accepted
    obtain ⟨nesting, enough, denotes⟩ := readAtoms_eq_ok_iff.1 accepted
    -- Counted by lists the tree is one less deep than counted by nodes.
    have height := denotes_height denotes
    refine ⟨by omega, ?_⟩
    constructor
    · intro shallow full
      have := denotes_height full
      omega
    · intro short
      have different : nesting ≠ maxDepth := fun full => short (full ▸ denotes)
      omega
  · intro formed
    refine ⟨fun layout => ?_, infix_read_write formed⟩
    constructor
    · rintro ⟨other, accepted⟩
      by_contra deep
      obtain ⟨position, found, refused⟩ := tooDeep_read_print formed layout (by omega)
      rw [accepted] at refused
      cases refused
    · intro shallow
      exact ⟨expr, read_print_of_le formed layout (by omega)⟩

theorem read_depth_tower :
    (read "(f f)" = .ok (tower 1) ∧ (tower 1).depth ≤ maxDepth) ∧
      (∃ other, read ((tower maxDepth).print .spaced) = .ok other) ∧
      Infix.read (Token.ofText (tower 255).write) = .ok (tower 255) := by
  have short : read "(f f)" = .ok (tower 1) := by decide +kernel
  refine ⟨⟨short, ?_⟩, ?_, ?_⟩
  · apply ((read_depth (tower 1)).1 "(f f)" short).2.2
    intro full
    have := denotes_height full
    rw [height_tower] at this
    exact absurd this (by decide)
  · apply (((read_depth _).2 (wellFormed_tower maxDepth)).1 .spaced).2
    rw [depth_tower]
  · apply (((read_depth _).2 (wellFormed_tower 255)).2 (unsigned_tower 255)).1
    rw [depth_tower]
    decide

/-- The first tree beyond the depth limit is read from canonical text, and the infix reader refuses it. -/
theorem read_print_tower_beyond_depth :
    read ((tower maxDepth).print .compact) = .ok (tower maxDepth) ∧
      ¬(tower maxDepth).depth ≤ maxDepth ∧
      Infix.read (Token.ofText (tower maxDepth).write) ≠ .ok (tower maxDepth) := by
  have formed := wellFormed_tower maxDepth
  have deep : maxDepth < (tower maxDepth).depth := by
    rw [depth_tower]
    exact Nat.lt_succ_self maxDepth
  refine ⟨read_print_of_le formed .compact (height_tower maxDepth).le, Nat.not_le.2 deep, ?_⟩
  obtain ⟨position, found, refused⟩ := (infix_read_write formed (unsigned_tower maxDepth)).2 deep
  rw [refused]
  exact nofun

end ShaderDefs.Canonical
