import ShaderDefs.Expr.Basic
import ShaderDefs.Proofs.Text.Numeral

/-! Trees that can be written down: every identifier is a name and every application has an argument.
The height of a tree counts the compound nodes on its longest path, so a leaf has height zero. -/

set_option autoImplicit false

namespace ShaderDefs.Expr

mutual

def height : Expr → Nat
  | .literal _ => 0
  | .identifier _ => 0
  | .binary _ left right => max left.height right.height + 1
  | .application callee arguments => max callee.height (heightOfAll arguments) + 1

def heightOfAll : List Expr → Nat
  | [] => 0
  | expr :: rest => max expr.height (heightOfAll rest)

end

theorem heightOfAll_le_iff {exprs : List Expr} {bound : Nat} :
    heightOfAll exprs ≤ bound ↔ ∀ expr ∈ exprs, expr.height ≤ bound := by
  induction exprs with
  | nil => simp [heightOfAll]
  | cons first rest ih => rw [heightOfAll, Nat.max_le, ih, List.forall_mem_cons]

theorem depth_eq_height_add_one (expr : Expr) : expr.depth = expr.height + 1 := by
  induction expr with
  | literal value => rfl
  | identifier name => rfl
  | binary operator left right leftIh rightIh =>
    simp only [depth, height]
    omega
  | application callee arguments calleeIh argumentsIh =>
    -- Arguments add a level only where there are any, but the callee is one deep in any case.
    have all : ∀ bound, depthOfAll arguments ≤ bound + 1 ↔ heightOfAll arguments ≤ bound := by
      intro bound
      simp only [depthOfAll_le_iff, heightOfAll_le_iff]
      constructor
      · intro shallow argument member
        have := shallow argument member
        have := argumentsIh argument member
        omega
      · intro low argument member
        have := low argument member
        have := argumentsIh argument member
        omega
    have := all (max callee.height (heightOfAll arguments))
    have := all (max callee.height (depthOfAll arguments - 1))
    simp only [depth, height]
    omega

inductive WellFormed : Expr → Prop where
  | literal (value : Int64) : WellFormed (.literal value)
  | identifier {name : String} (named : Text.IsName name) : WellFormed (.identifier name)
  | binary {operator : Operator} {left right : Expr} (leftFormed : WellFormed left)
      (rightFormed : WellFormed right) : WellFormed (.binary operator left right)
  | application {callee : Expr} {arguments : List Expr} (some : arguments ≠ [])
      (calleeFormed : WellFormed callee)
      (argumentsFormed : ∀ argument ∈ arguments, WellFormed argument) :
      WellFormed (.application callee arguments)

end ShaderDefs.Expr
