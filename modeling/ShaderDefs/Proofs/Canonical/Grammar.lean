import ShaderDefs.Canonical.Atom
import ShaderDefs.Proofs.Expr.WellFormed

/-! The grammar of canonical text. It says which atoms stand for which trees and how deep their lists
nest. The atoms of every well formed tree stand for that tree alone. -/

set_option autoImplicit false

namespace ShaderDefs.Canonical

open Text.Integer (SignedNumeral)

/-- The atoms stand for the trees one after the other, and their lists nest to the given number. A
list holds an operator with two operands, or a callee with at least one argument. -/
inductive Denotes : List Atom → List Expr → Nat → Prop where
  | nil : Denotes [] [] 0
  | integer {text : String} {value : Int64} {rest : List Atom} {exprs : List Expr} {nesting : Nat}
      (signed : SignedNumeral text value) (more : Denotes rest exprs nesting) :
      Denotes (.word text :: rest) (.literal value :: exprs) nesting
  | name {text : String} {rest : List Atom} {exprs : List Expr} {nesting : Nat}
      (named : Text.IsName text) (more : Denotes rest exprs nesting) :
      Denotes (.word text :: rest) (.identifier text :: exprs) nesting
  | binary {operator : Operator} {left right : Expr} {inner rest : List Atom} {exprs : List Expr}
      {depth nesting : Nat} (operands : Denotes inner [left, right] depth)
      (more : Denotes rest exprs nesting) :
      Denotes (.opening :: .word operator.symbol.toString :: (inner ++ .closing :: rest))
        (.binary operator left right :: exprs) (max (depth + 1) nesting)
  | application {callee argument : Expr} {arguments : List Expr} {inner rest : List Atom}
      {exprs : List Expr} {depth nesting : Nat}
      (items : Denotes inner (callee :: argument :: arguments) depth)
      (more : Denotes rest exprs nesting) :
      Denotes (.opening :: (inner ++ .closing :: rest))
        (.application callee (argument :: arguments) :: exprs) (max (depth + 1) nesting)

namespace Denotes

variable {atoms front back : List Atom} {expr : Expr} {exprs first last : List Expr}
variable {nesting : Nat}

theorem append {left right : Nat} (head : Denotes front first left)
    (tail : Denotes back last right) :
    Denotes (front ++ back) (first ++ last) (max left right) := by
  induction head with
  | nil => rwa [Nat.zero_max]
  | integer signed _ ih => exact .integer signed ih
  | name named _ ih => exact .name named ih
  | binary operands _ _ ih =>
    rw [Nat.max_assoc]
    simpa using binary operands ih
  | application items _ _ ih =>
    rw [Nat.max_assoc]
    simpa using application items ih

theorem nesting_eq (denotes : Denotes atoms exprs nesting) : nesting = Expr.heightOfAll exprs := by
  induction denotes with
  | nil => rfl
  | integer _ _ ih => simp [Expr.heightOfAll, Expr.height, ih]
  | name _ _ ih => simp [Expr.heightOfAll, Expr.height, ih]
  | binary _ _ operandsIh ih =>
    simp only [Expr.heightOfAll, Expr.height] at *
    omega
  | application _ _ itemsIh ih =>
    simp only [Expr.heightOfAll, Expr.height] at *
    omega

theorem wellFormed (denotes : Denotes atoms exprs nesting) : ∀ expr ∈ exprs, expr.WellFormed := by
  induction denotes with
  | nil => exact nofun
  | integer _ _ ih => exact List.forall_mem_cons.2 ⟨.literal _, ih⟩
  | name named _ ih => exact List.forall_mem_cons.2 ⟨.identifier named, ih⟩
  | binary _ _ operandsIh ih =>
    refine List.forall_mem_cons.2 ⟨.binary ?_ ?_, ih⟩
    · exact operandsIh _ (by simp)
    · exact operandsIh _ (by simp)
  | application _ _ itemsIh ih =>
    refine List.forall_mem_cons.2 ⟨.application (List.cons_ne_nil _ _) ?_ ?_, ih⟩
    · exact itemsIh _ List.mem_cons_self
    · exact fun argument member => itemsIh argument (List.mem_cons_of_mem _ member)

end Denotes

theorem denotes_atomsOfAll {exprs : List Expr}
    (each : ∀ expr ∈ exprs, Denotes expr.atoms [expr] expr.height) :
    Denotes (Expr.atomsOfAll exprs) exprs (Expr.heightOfAll exprs) := by
  induction exprs with
  | nil => exact .nil
  | cons first rest ih =>
    have tail := ih fun expr member => each expr (List.mem_cons_of_mem _ member)
    exact (each first List.mem_cons_self).append tail

theorem denotes_atoms {expr : Expr} (formed : expr.WellFormed) :
    Denotes expr.atoms [expr] expr.height := by
  induction formed with
  | literal value => exact .integer (Text.Integer.signedNumeral_write value) .nil
  | identifier named => exact .name named .nil
  | @binary operator left right _ _ leftIh rightIh =>
    have list : Denotes _ [.binary operator left right] _ := .binary (leftIh.append rightIh) .nil
    rwa [Nat.max_zero] at list
  | @application callee arguments some _ _ calleeIh argumentsIh =>
    obtain ⟨argument, others, rfl⟩ := List.exists_cons_of_ne_nil some
    have list := Denotes.application (calleeIh.append (denotes_atomsOfAll argumentsIh)) .nil
    rwa [Nat.max_zero] at list

end ShaderDefs.Canonical
