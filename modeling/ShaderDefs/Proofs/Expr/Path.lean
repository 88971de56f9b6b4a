import ShaderDefs.Expr.Basic

/-! Paths. A path leads from a tree to one of its nodes by the index of a subtree at every step. The
nodes of a tree are listed in the order of their paths, where a path comes before all that go on from
it. -/

set_option autoImplicit false

namespace ShaderDefs.Expr

def children : Expr → List Expr
  | .literal _ | .identifier _ => []
  | .binary _ left right => [left, right]
  | .application callee arguments => callee :: arguments

/-- The node that the path leads to, if it leads anywhere. -/
def at? : Expr → List Nat → Option Expr
  | expr, [] => some expr
  | expr, index :: path => expr.children[index]?.bind (·.at? path)

theorem nodes_eq (expr : Expr) : expr.nodes = expr :: expr.children.flatMap nodes := by
  cases expr <;> simp [nodes, children, nodesOfAll_eq_flatMap]

theorem induction_children {motive : Expr → Prop}
    (step : ∀ expr, (∀ child ∈ expr.children, motive child) → motive expr) (expr : Expr) :
    motive expr := by
  induction expr with
  | literal value => exact step _ nofun
  | identifier name => exact step _ nofun
  | binary operator left right leftIh rightIh =>
    refine step _ (List.forall_mem_cons.2 ⟨leftIh, List.forall_mem_cons.2 ⟨rightIh, nofun⟩⟩)
  | application callee arguments calleeIh argumentsIh =>
    exact step _ (List.forall_mem_cons.2 ⟨calleeIh, argumentsIh⟩)

/-- Every node stands in the list with its path, and the paths are in order. -/
structure ListsNodes (expr : Expr) (places : List (List Nat × Expr)) : Prop where
  ordered : places.Pairwise fun first second => first.1 < second.1
  mem_iff : ∀ path node, (path, node) ∈ places ↔ expr.at? path = some node

structure ListsNodesFrom (start : Nat) (trees : List Expr) (places : List (List Nat × Expr)) :
    Prop where
  ordered : places.Pairwise fun first second => first.1 < second.1
  mem_iff : ∀ path node, (path, node) ∈ places ↔
    ∃ index rest, path = (start + index) :: rest ∧ trees[index]?.bind (·.at? rest) = some node

variable {start : Nat} {tree : Expr} {trees : List Expr} {places own others : List (List Nat × Expr)}

theorem ListsNodesFrom.nil : ListsNodesFrom start [] [] where
  ordered := .nil
  mem_iff path node := by simp

theorem ListsNodesFrom.cons (first : tree.ListsNodes own)
    (rest : ListsNodesFrom (start + 1) trees others) :
    ListsNodesFrom start (tree :: trees)
      (own.map (fun place => (start :: place.1, place.2)) ++ others) where
  ordered := by
    refine List.pairwise_append.2 ⟨List.pairwise_map.2 ?_, rest.ordered, ?_⟩
    · refine first.ordered.imp fun less => ?_
      exact List.cons_lt_cons_iff.2 (.inr ⟨rfl, less⟩)
    · rintro _ member ⟨path, node⟩ other
      obtain ⟨place, _, rfl⟩ := List.mem_map.1 member
      obtain ⟨index, tail, rfl, _⟩ := (rest.mem_iff path node).1 other
      exact List.cons_lt_cons_iff.2 (.inl (by omega))
  mem_iff path node := by
    rw [List.mem_append, List.mem_map, rest.mem_iff]
    constructor
    · rintro (⟨⟨tail, same⟩, member, found⟩ | ⟨index, tail, rfl, found⟩)
      · cases found
        exact ⟨0, tail, rfl, (first.mem_iff tail same).1 member⟩
      · exact ⟨index + 1, tail, by rw [Nat.add_assoc, Nat.add_comm 1], found⟩
    · rintro ⟨index, tail, rfl, found⟩
      cases index with
      | zero => exact .inl ⟨(tail, node), (first.mem_iff tail node).2 found, rfl⟩
      | succ index => exact .inr ⟨index, tail, by rw [Nat.add_assoc, Nat.add_comm 1], found⟩

theorem ListsNodesFrom.root {expr : Expr} (below : ListsNodesFrom 0 expr.children places) :
    expr.ListsNodes (([], expr) :: places) where
  ordered := by
    refine .cons ?_ below.ordered
    rintro ⟨path, node⟩ member
    obtain ⟨index, rest, rfl, _⟩ := (below.mem_iff path node).1 member
    exact List.nil_lt_cons _ _
  mem_iff path node := by
    rw [List.mem_cons, below.mem_iff]
    cases path with
    | nil => simp [at?, eq_comm]
    | cons index rest =>
      simp only [Nat.zero_add, Prod.mk.injEq, List.cons.injEq, reduceCtorEq, false_and, false_or, at?]
      constructor
      · rintro ⟨_, _, ⟨rfl, rfl⟩, found⟩
        exact found
      · exact fun found => ⟨index, rest, ⟨rfl, rfl⟩, found⟩

theorem exists_listsNodesFrom
    (each : ∀ tree ∈ trees, ∃ places, tree.ListsNodes places ∧ places.map Prod.snd = tree.nodes)
    (start : Nat) :
    ∃ places, ListsNodesFrom start trees places ∧ places.map Prod.snd = trees.flatMap nodes := by
  -- The index to start from is general because every tree stands one further than the one before.
  induction trees generalizing start with
  | nil => exact ⟨[], .nil, rfl⟩
  | cons tree trees ih =>
    obtain ⟨⟨own, first, same⟩, further⟩ := List.forall_mem_cons.1 each
    obtain ⟨others, rest, below⟩ := ih further (start + 1)
    refine ⟨_, .cons first rest, ?_⟩
    rw [List.map_append, List.map_map, below, List.flatMap_cons, ← same]
    rfl

/-- The nodes of a tree in their order are those that paths lead to, in the order of the paths. -/
theorem exists_listsNodes (expr : Expr) :
    ∃ places, expr.ListsNodes places ∧ places.map Prod.snd = expr.nodes := by
  induction expr using induction_children with
  | step expr ih =>
    obtain ⟨places, below, same⟩ := exists_listsNodesFrom ih 0
    exact ⟨_, below.root, by rw [List.map_cons, same, nodes_eq expr]⟩

end ShaderDefs.Expr
