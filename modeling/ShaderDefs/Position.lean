/-! Places in a source text. Lines and columns count from one, and a column counts characters. -/

set_option autoImplicit false

namespace ShaderDefs

structure Position where
  line : UInt32
  column : UInt32
  deriving DecidableEq

namespace Position

def start : Position := ⟨1, 1⟩

/-- A place given by plain counts, which wrap past the width of a word. -/
def ofNat (line column : Nat) : Position := ⟨.ofNat line, .ofNat column⟩

def text (position : Position) : String :=
  toString position.line ++ ":" ++ toString position.column

def precedes (first second : Position) : Bool :=
  first.line < second.line || (first.line == second.line && first.column ≤ second.column)

def sort (positions : List Position) : List Position := positions.mergeSort precedes

theorem precedes_iff (first second : Position) :
    first.precedes second ↔
      first.line < second.line ∨ (first.line = second.line ∧ first.column ≤ second.column) := by
  simp [precedes]

theorem precedes_total (first second : Position) :
    first.precedes second || second.precedes first := by
  simp only [Bool.or_eq_true, precedes_iff, UInt32.lt_iff_toNat_lt, UInt32.le_iff_toNat_le,
    ← UInt32.toNat_inj]
  omega

theorem precedes_trans (first second third : Position) (left : first.precedes second)
    (right : second.precedes third) : first.precedes third := by
  simp only [precedes_iff, UInt32.lt_iff_toNat_lt, UInt32.le_iff_toNat_le,
    ← UInt32.toNat_inj] at *
  omega

theorem sort_perm (positions : List Position) : (sort positions).Perm positions :=
  List.mergeSort_perm positions precedes

theorem sort_pairwise (positions : List Position) :
    (sort positions).Pairwise fun first second => first.precedes second :=
  List.pairwise_mergeSort precedes_trans precedes_total positions

end Position

end ShaderDefs
