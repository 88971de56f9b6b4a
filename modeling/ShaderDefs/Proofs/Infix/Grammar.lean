import ShaderDefs.Infix.Read
import ShaderDefs.Definition
import ShaderDefs.Proofs.Text.Numeral

/-! The grammar of infix expressions and of the lines that define something. It says which tokens
stand for which tree and how deep their parentheses nest, without a word on how they are read. -/

set_option autoImplicit false

namespace ShaderDefs.Infix

/-- The layers of the grammar, the loosest first. A run has two atoms or more. -/
inductive Level where
  | sum
  | product
  | application
  | run
  | atom
  deriving DecidableEq

/-- The tokens stand for the tree at the level, and their parentheses nest to the given number. -/
inductive Derives : Level → List Token → Expr → Nat → Prop where
  | name {token : Token} (kind : token.kind = .identifier) :
      Derives .atom [token] (.identifier token.text) 0
  | integer {token : Token} {value : Int64} (kind : token.kind = .integer)
      (numeral : Text.Integer.Numeral token.text value) : Derives .atom [token] (.literal value) 0
  | parentheses {opening closing : Token} {tokens : List Token} {expr : Expr} {nesting : Nat}
      (opens : opening.kind = .opening) (closes : closing.kind = .closing)
      (inner : Derives .sum tokens expr nesting) :
      Derives .atom (opening :: (tokens ++ [closing])) expr (nesting + 1)
  /-- The first atom of a run is applied to the others. -/
  | apply {left right : List Token} {callee argument : Expr} {first last : Nat}
      (head : Derives .atom left callee first) (next : Derives .atom right argument last) :
      Derives .run (left ++ right) (.application callee [argument]) (max first last)
  | extend {left right : List Token} {callee argument : Expr} {arguments : List Expr}
      {first last : Nat} (head : Derives .run left (.application callee arguments) first)
      (next : Derives .atom right argument last) :
      Derives .run (left ++ right) (.application callee (arguments ++ [argument])) (max first last)
  | lone {tokens : List Token} {expr : Expr} {nesting : Nat}
      (atom : Derives .atom tokens expr nesting) : Derives .application tokens expr nesting
  | run {tokens : List Token} {expr : Expr} {nesting : Nat}
      (atoms : Derives .run tokens expr nesting) : Derives .application tokens expr nesting
  | factor {tokens : List Token} {expr : Expr} {nesting : Nat}
      (application : Derives .application tokens expr nesting) :
      Derives .product tokens expr nesting
  | multiply {left right : List Token} {token : Token} {operator : Operator} {first last : Expr}
      {leftNesting rightNesting : Nat} (head : Derives .product left first leftNesting)
      (kind : token.kind = .operator operator)
      (multiplies : operator = .multiply ∨ operator = .divide)
      (next : Derives .application right last rightNesting) :
      Derives .product (left ++ token :: right) (.binary operator first last)
        (max leftNesting rightNesting)
  | term {tokens : List Token} {expr : Expr} {nesting : Nat}
      (product : Derives .product tokens expr nesting) : Derives .sum tokens expr nesting
  | add {left right : List Token} {token : Token} {operator : Operator} {first last : Expr}
      {leftNesting rightNesting : Nat} (head : Derives .sum left first leftNesting)
      (kind : token.kind = .operator operator)
      (adds : operator = .add ∨ operator = .subtract)
      (next : Derives .product right last rightNesting) :
      Derives .sum (left ++ token :: right) (.binary operator first last)
        (max leftNesting rightNesting)

theorem Derives.ne_nil {level : Level} {tokens : List Token} {expr : Expr} {nesting : Nat}
    (derives : Derives level tokens expr nesting) : tokens ≠ [] := by
  induction derives with
  | apply _ _ ih _ => exact List.append_ne_nil_of_left_ne_nil ih _
  | extend _ _ ih _ => exact List.append_ne_nil_of_left_ne_nil ih _
  | multiply _ _ _ _ ih _ => exact List.append_ne_nil_of_left_ne_nil ih _
  | add _ _ _ _ ih _ => exact List.append_ne_nil_of_left_ne_nil ih _
  | lone _ ih => exact ih
  | run _ ih => exact ih
  | factor _ ih => exact ih
  | term _ ih => exact ih
  | _ => exact List.cons_ne_nil _ _

theorem Derives.kind_of_mem {level : Level} {tokens : List Token} {expr : Expr} {nesting : Nat}
    (derives : Derives level tokens expr nesting) {token : Token} (member : token ∈ tokens) :
    token.kind.isEnd = false ∧ Fault.ofToken? token = none := by
  induction derives with
  | name kind =>
    cases List.mem_singleton.1 member
    simp [Token.Kind.isEnd, Fault.ofToken?, kind]
  | integer kind =>
    cases List.mem_singleton.1 member
    simp [Token.Kind.isEnd, Fault.ofToken?, kind]
  | parentheses opens closes _ ih =>
    rcases List.mem_cons.1 member with rfl | member
    · simp [Token.Kind.isEnd, Fault.ofToken?, opens]
    rcases List.mem_append.1 member with member | member
    · exact ih member
    · cases List.mem_singleton.1 member
      simp [Token.Kind.isEnd, Fault.ofToken?, closes]
  | apply _ _ headIh nextIh => exact (List.mem_append.1 member).elim headIh nextIh
  | extend _ _ headIh nextIh => exact (List.mem_append.1 member).elim headIh nextIh
  | lone _ ih => exact ih member
  | run _ ih => exact ih member
  | factor _ ih => exact ih member
  | multiply _ kind _ _ headIh nextIh =>
    rcases List.mem_append.1 member with member | member
    · exact headIh member
    rcases List.mem_cons.1 member with rfl | member
    · simp [Token.Kind.isEnd, Fault.ofToken?, kind]
    · exact nextIh member
  | term _ ih => exact ih member
  | add _ kind _ _ headIh nextIh =>
    rcases List.mem_append.1 member with member | member
    · exact headIh member
    rcases List.mem_cons.1 member with rfl | member
    · simp [Token.Kind.isEnd, Fault.ofToken?, kind]
    · exact nextIh member

theorem Derives.startsAtom {tokens : List Token} {expr : Expr} {nesting : Nat}
    (derives : Derives .atom tokens expr nesting) (rest : List Token) :
    startsAtom (tokens ++ rest) := by
  cases derives with
  | name kind => simp [Infix.startsAtom, kind, Token.Kind.startsAtom]
  | integer kind => simp [Infix.startsAtom, kind, Token.Kind.startsAtom]
  | parentheses opens => simp [Infix.startsAtom, opens, Token.Kind.startsAtom]

def Fits (room : Nat) (expr : Expr) (nesting : Nat) : Prop :=
  nesting ≤ room ∧ expr.depth ≤ maxDepth

theorem fits_leaf (room : Nat) {leaf : Expr} (flat : leaf.depth = 1) : Fits room leaf 0 :=
  ⟨Nat.zero_le _, flat ▸ by decide⟩

theorem fits_parentheses_iff {room nesting : Nat} {expr : Expr} :
    Fits (room + 1) expr (nesting + 1) ↔ Fits room expr nesting := by
  simp [Fits]

theorem fits_binary_iff {room : Nat} {operator : Operator} {left right : Expr} {first last : Nat} :
    Fits room (.binary operator left right) (max first last) ↔
      (Fits room left first ∧ Fits room right last) ∧
        (Expr.binary operator left right).depth ≤ maxDepth := by
  simp only [Fits, Expr.depth]
  omega

def PartsFit (room : Nat) (expr : Expr) (nesting : Nat) : Prop :=
  nesting ≤ room ∧ expr.depth ≤ maxDepth + 1

theorem partsFit_apply_iff {room : Nat} {callee argument : Expr} {first last : Nat} :
    PartsFit room (.application callee [argument]) (max first last) ↔
      Fits room callee first ∧ Fits room argument last := by
  simp only [PartsFit, Fits, Expr.depth, Expr.depthOfAll]
  omega

theorem partsFit_extend_iff {room : Nat} {callee argument : Expr} {arguments : List Expr}
    {first last : Nat} :
    PartsFit room (.application callee (arguments ++ [argument])) (max first last) ↔
      PartsFit room (.application callee arguments) first ∧ Fits room argument last := by
  have all : ∀ bound, Expr.depthOfAll (arguments ++ [argument]) ≤ bound ↔
      Expr.depthOfAll arguments ≤ bound ∧ argument.depth ≤ bound := by
    intro bound
    simp only [Expr.depthOfAll_le_iff, List.mem_append, List.mem_singleton, or_imp, forall_and,
      forall_eq]
  have := all maxDepth
  simp only [PartsFit, Fits, Expr.depth, Nat.add_le_add_iff_right, Nat.max_le] at *
  omega

theorem fits_application_iff {room nesting : Nat} {callee : Expr} {arguments : List Expr} :
    Fits room (.application callee arguments) nesting ↔
      PartsFit room (.application callee arguments) nesting ∧
        (Expr.application callee arguments).depth ≤ maxDepth := by
  simp only [PartsFit, Fits]
  omega

end ShaderDefs.Infix
