import ShaderDefs.Operator

/-! Expression trees. Applying one expression to others is written by juxtaposition; everything else
is a leaf or an arithmetic operation. Integers are the leaves with a decimal text of their own. -/

set_option autoImplicit false

namespace ShaderDefs

inductive Expr where
  | literal (value : Int64)
  | identifier (name : String)
  | binary (operator : Operator) (left right : Expr)
  | application (callee : Expr) (arguments : List Expr)

namespace Expr

@[elab_as_elim, induction_eliminator]
theorem induction {motive : Expr → Prop} (literal : ∀ value, motive (.literal value))
    (identifier : ∀ name, motive (.identifier name))
    (binary : ∀ operator left right, motive left → motive right →
      motive (.binary operator left right))
    (application : ∀ callee arguments, motive callee → (∀ argument ∈ arguments, motive argument) →
      motive (.application callee arguments)) (expr : Expr) : motive expr :=
  @Expr.rec motive (fun arguments => ∀ argument ∈ arguments, motive argument)
    literal identifier binary application
    (fun _ member => by cases member)
    (fun _ _ head tail _ member => by
      rcases List.mem_cons.1 member with rfl | member
      · exact head
      · exact tail _ member)
    expr

mutual

def depth : Expr → Nat
  | .literal _ => 1
  | .identifier _ => 1
  | .binary _ left right => max left.depth right.depth + 1
  | .application callee arguments => max callee.depth (depthOfAll arguments) + 1

def depthOfAll : List Expr → Nat
  | [] => 0
  | expr :: rest => max expr.depth (depthOfAll rest)

end

mutual

/-- The tree and all its subtrees, parents first and then from left to right. -/
def nodes : Expr → List Expr
  | .literal value => [.literal value]
  | .identifier name => [.identifier name]
  | .binary operator left right => .binary operator left right :: (left.nodes ++ right.nodes)
  | .application callee arguments =>
    .application callee arguments :: (callee.nodes ++ nodesOfAll arguments)

def nodesOfAll : List Expr → List Expr
  | [] => []
  | expr :: rest => expr.nodes ++ nodesOfAll rest

end

def calleeName? : Expr → Option String
  | .application (.identifier name) _ => some name
  | _ => none

mutual

def same : Expr → Expr → Bool
  | .literal first, .literal second => first == second
  | .identifier first, .identifier second => first == second
  | .binary operator left right, .binary operator' left' right' =>
    operator == operator' && left.same left' && right.same right'
  | .application callee arguments, .application callee' arguments' =>
    callee.same callee' && sameAll arguments arguments'
  | _, _ => false

def sameAll : List Expr → List Expr → Bool
  | [], [] => true
  | first :: rest, first' :: rest' => first.same first' && sameAll rest rest'
  | _, _ => false

end

theorem depthOfAll_le_iff {arguments : List Expr} {bound : Nat} :
    depthOfAll arguments ≤ bound ↔ ∀ argument ∈ arguments, argument.depth ≤ bound := by
  induction arguments with
  | nil => simp [depthOfAll]
  | cons first rest ih => rw [depthOfAll, Nat.max_le, ih, List.forall_mem_cons]

theorem nodesOfAll_eq_flatMap (arguments : List Expr) :
    nodesOfAll arguments = arguments.flatMap nodes := by
  induction arguments with
  | nil => rfl
  | cons first rest ih => rw [nodesOfAll, List.flatMap_cons, ih]

theorem calleeName?_eq_some_iff {expr : Expr} {callee : String} :
    expr.calleeName? = some callee ↔
      ∃ arguments, expr = .application (.identifier callee) arguments := by
  constructor
  · intro applies
    unfold calleeName? at applies
    split at applies
    next name arguments =>
      cases applies
      exact ⟨arguments, rfl⟩
    next => cases applies
  · rintro ⟨arguments, rfl⟩
    rfl

theorem same_iff {first second : Expr} : first.same second ↔ first = second := by
  induction first generalizing second with
  | literal value => cases second <;> simp [same]
  | identifier name => cases second <;> simp [same]
  | binary operator left right leftIh rightIh =>
    cases second <;> simp [same, leftIh, rightIh, and_assoc]
  | application callee arguments calleeIh argumentsIh =>
    have all : ∀ others, sameAll arguments others ↔ arguments = others := by
      clear calleeIh
      induction arguments with
      | nil => intro others; cases others <;> simp [sameAll]
      | cons head tail ih =>
        intro others
        cases others with
        | nil => simp [sameAll]
        | cons other others =>
          simp [sameAll, argumentsIh head (by simp),
            ih (fun argument member => argumentsIh argument (List.mem_cons_of_mem _ member))]
    cases second <;> simp [same, calleeIh, all]

instance : DecidableEq Expr := fun _ _ => decidable_of_iff _ same_iff

end Expr

namespace Text.Integer

def magnitude? (digits : List Char) : Option Nat :=
  if !digits.isEmpty && digits.all Char.isDigit then some (Nat.ofDigitChars 10 digits 0) else none

def signed? : List Char → Option Int
  | '-' :: digits => (magnitude? digits).map fun magnitude => -magnitude
  | '+' :: digits => (magnitude? digits).map fun magnitude => magnitude
  | digits => (magnitude? digits).map fun magnitude => magnitude

def fit? (value : Int) : Option Int64 :=
  if Int64.minValue.toInt ≤ value ∧ value ≤ Int64.maxValue.toInt then some (Int64.ofInt value)
  else none

def read? (text : String) : Option Int64 := (signed? text.toList).bind fit?

def write (value : Int64) : String := value.toInt.repr

theorem fit?_toInt (value : Int64) : fit? value.toInt = some value := by
  rw [fit?, if_pos ⟨value.minValue_le_toInt, value.toInt_le⟩, Int64.ofInt_toInt]

end Text.Integer

end ShaderDefs
