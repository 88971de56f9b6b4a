import ShaderDefs.Proofs.Infix.Grammar

/-! Applied names. The tokens alone say which names an expression applies: a name is applied where it
is the first atom of a run of at least two, with any number of parentheses around it alone. From left
to right these are the names that the nodes of the tree apply, parents first. -/

set_option autoImplicit false

namespace ShaderDefs

def Token.Kind.opensOperand : Kind → Bool
  | .equals | .operator _ | .opening => true
  | _ => false

namespace Expr

def appliedNames (expr : Expr) : List String := expr.nodes.filterMap calleeName?

def ownName : Expr → List String
  | .identifier name => [name]
  | _ => []

theorem appliedNames_binary (operator : Operator) (left right : Expr) :
    (binary operator left right).appliedNames = left.appliedNames ++ right.appliedNames :=
  (List.filterMap_cons_none rfl).trans List.filterMap_append

theorem appliedNames_application (callee : Expr) (arguments : List Expr) :
    (application callee arguments).appliedNames =
      callee.appliedNames ++ callee.ownName ++ arguments.flatMap appliedNames := by
  have parts : (callee.nodes ++ nodesOfAll arguments).filterMap calleeName? =
      callee.appliedNames ++ arguments.flatMap appliedNames := by
    rw [List.filterMap_append, nodesOfAll_eq_flatMap, List.filterMap_flatMap]
    rfl
  cases callee with
  | identifier name =>
    have first : calleeName? (.application (.identifier name) arguments) = some name := rfl
    exact (List.filterMap_cons_some first).trans (congrArg (name :: ·) parts)
  | _ =>
    -- Here the callee is no name, so the whole adds none of its own.
    refine (List.filterMap_cons_none rfl).trans (parts.trans ?_)
    rw [ownName, List.append_nil]
    exact nofun

end Expr

namespace Infix

/-- The tokens on both sides, the nearest first, stand in so many pairs of parentheses around what is
between them. An operand begins in front of these and an atom follows them, so what is between is the
first atom of a run of at least two. -/
def HeadsRun (pairs : Nat) (before after : List Token) : Prop :=
  (∀ token ∈ before.take pairs, token.kind = .opening) ∧
    (∀ token ∈ after.take pairs, token.kind = .closing) ∧
    (∃ token ∈ before[pairs]?, token.kind.opensOperand) ∧
    ∃ token ∈ after[pairs]?, token.kind.startsAtom

def headsRun : List Token → List Token → Bool
  | left :: before, right :: after =>
    if left.kind = .opening ∧ right.kind = .closing then headsRun before after
    else left.kind.opensOperand && right.kind.startsAtom
  | _, _ => false

section HeadsRun

variable {before after rest : List Token} {left right token : Token}

theorem headsRun_zero_iff :
    HeadsRun 0 (left :: before) (right :: after) ↔
      left.kind.opensOperand ∧ right.kind.startsAtom := by
  simp [HeadsRun]

theorem headsRun_succ_iff {pairs : Nat} :
    HeadsRun (pairs + 1) (left :: before) (right :: after) ↔
      (left.kind = .opening ∧ right.kind = .closing) ∧ HeadsRun pairs before after := by
  simp [HeadsRun, and_assoc, and_left_comm]

theorem headsRun_iff : headsRun before after ↔ ∃ pairs, HeadsRun pairs before after := by
  fun_induction headsRun before after with
  | case1 left before right after both ih =>
    rw [ih]
    constructor
    · rintro ⟨pairs, heads⟩
      exact ⟨pairs + 1, headsRun_succ_iff.2 ⟨both, heads⟩⟩
    · rintro ⟨pairs, heads⟩
      cases pairs with
      | zero =>
        -- A closing parenthesis is no atom, so this pair has to be taken off.
        have starts := (headsRun_zero_iff.1 heads).2
        simp [both.2, Token.Kind.startsAtom] at starts
      | succ pairs => exact ⟨pairs, (headsRun_succ_iff.1 heads).2⟩
  | case2 left before right after other =>
    rw [Bool.and_eq_true]
    constructor
    · exact fun ends => ⟨0, headsRun_zero_iff.2 ends⟩
    · rintro ⟨pairs, heads⟩
      cases pairs with
      | zero => exact headsRun_zero_iff.1 heads
      | succ pairs => exact absurd (headsRun_succ_iff.1 heads).1 other
  | case3 before after none =>
    refine iff_of_false Bool.false_ne_true ?_
    rintro ⟨pairs, _, _, ⟨left, found, _⟩, ⟨right, foundRight, _⟩⟩
    cases before with
    | nil => simp at found
    | cons left before =>
      cases after with
      | nil => simp at foundRight
      | cons right after => exact none left before right after rfl rfl

instance (before after : List Token) : Decidable (∃ pairs, HeadsRun pairs before after) :=
  decidable_of_iff _ headsRun_iff

theorem headsRun_parentheses (opens : left.kind = .opening) (closes : right.kind = .closing) :
    headsRun (left :: before) (right :: after) = headsRun before after := by
  rw [headsRun, if_pos ⟨opens, closes⟩]

theorem headsRun_eq_false_of_opensOperand (inside : left.kind.opensOperand = false) :
    headsRun (left :: before) after = false := by
  cases after with
  | nil => rfl
  | cons right after =>
    have noOpening : left.kind ≠ .opening := fun same => by
      simp [same, Token.Kind.opensOperand] at inside
    simp [headsRun, noOpening, inside]

theorem headsRun_of_startsAtom (opens : ∃ token ∈ before.head?, token.kind.opensOperand)
    (starts : startsAtom after) : headsRun before after := by
  cases after with
  | nil => cases starts
  | cons right after =>
    obtain ⟨left, inBefore, opensOperand⟩ := opens
    obtain ⟨tail, rfl⟩ := List.head?_eq_some_iff.1 inBefore
    have noClosing : right.kind ≠ .closing := fun same => by
      simp [startsAtom, same, Token.Kind.startsAtom] at starts
    simp [headsRun, noClosing, opensOperand]
    exact starts

theorem headsRun_eq_false_of_startsAtom (loose : startsAtom after = false)
    (apart : (∀ left ∈ before.head?, left.kind ≠ .opening) ∨
      ∀ right ∈ after.head?, right.kind ≠ .closing) : headsRun before after = false := by
  cases before with
  | nil => rfl
  | cons left before =>
    cases after with
    | nil => rfl
    | cons right after =>
      have noPair : ¬(left.kind = .opening ∧ right.kind = .closing) := by
        rintro ⟨opens, closes⟩
        exact apart.elim (fun other => other left rfl opens) fun other => other right rfl closes
      rw [headsRun, if_neg noPair, Bool.and_eq_false_iff]
      exact .inr loose

end HeadsRun

/-- The names in a segment of a line that are applied there, given the tokens before the segment, the
nearest first, and those after it. -/
def namesApplied (before after : List Token) : List Token → List String
  | [] => []
  | token :: rest =>
    (if token.kind = .identifier ∧ headsRun before (rest ++ after) then [token.text] else []) ++
      namesApplied (token :: before) after rest

section NamesApplied

variable {before after rest : List Token} {token : Token}

theorem namesApplied_append (first second : List Token) :
    namesApplied before after (first ++ second) =
      namesApplied before (second ++ after) first ++
        namesApplied (first.reverse ++ before) after second := by
  induction first generalizing before with
  | nil => rfl
  | cons token first ih =>
    simp only [List.cons_append, namesApplied, ih, List.append_assoc, List.reverse_cons]
    rfl

theorem namesApplied_cons_of_ne (other : token.kind ≠ .identifier) :
    namesApplied before after (token :: rest) = namesApplied (token :: before) after rest := by
  rw [namesApplied, if_neg fun both => other both.1, List.nil_append]

end NamesApplied

/-- What has to stand around tokens of the level so that they are a whole part of a line. An atom may
stand anywhere, and a run may go on. -/
def Level.Stands (before after : List Token) : Level → Prop
  | .atom => True
  | .run => ∃ token ∈ before.head?, token.kind.opensOperand
  | _ => (∃ token ∈ before.head?, token.kind.opensOperand) ∧ startsAtom after = false

theorem Derives.exists_last {level : Level} {tokens : List Token} {expr : Expr} {nesting : Nat}
    (derives : Derives level tokens expr nesting) :
    ∃ front last, tokens = front ++ [last] ∧ last.kind.opensOperand = false := by
  have longer : ∀ {head tail : List Token},
      (∃ front last, tail = front ++ [last] ∧ last.kind.opensOperand = false) →
      ∃ front last, head ++ tail = front ++ [last] ∧ last.kind.opensOperand = false := by
    rintro head _ ⟨front, last, rfl, ends⟩
    exact ⟨head ++ front, last, (List.append_assoc _ _ _).symm, ends⟩
  induction derives with
  | @name token kind => exact ⟨[], token, rfl, by simp [kind, Token.Kind.opensOperand]⟩
  | @integer token _ kind => exact ⟨[], token, rfl, by simp [kind, Token.Kind.opensOperand]⟩
  | @parentheses opening closing tokens _ _ _ closes =>
    exact ⟨opening :: tokens, closing, rfl, by simp [closes, Token.Kind.opensOperand]⟩
  | apply _ _ _ ih => exact longer ih
  | extend _ _ _ ih => exact longer ih
  | multiply _ _ _ _ _ ih => exact longer (@longer [_] _ ih)
  | add _ _ _ _ _ ih => exact longer (@longer [_] _ ih)
  | lone _ ih => exact ih
  | run _ ih => exact ih
  | factor _ ih => exact ih
  | term _ ih => exact ih

theorem Derives.headsRun_reverse_append {level : Level} {tokens : List Token} {expr : Expr}
    {nesting : Nat} (derives : Derives level tokens expr nesting) (before after : List Token) :
    headsRun (tokens.reverse ++ before) after = false := by
  obtain ⟨front, last, rfl, ends⟩ := derives.exists_last
  rw [List.reverse_concat, List.cons_append]
  exact headsRun_eq_false_of_opensOperand ends

/-- The names that are applied in an expression between the tokens on both sides: those that its tree
applies, and the whole if it is a name at the beginning of a run. -/
def namesBetween (before after : List Token) (expr : Expr) : List String :=
  expr.appliedNames ++ if headsRun before after then expr.ownName else []

section Parts

variable {before after left right : List Token} {token : Token} {first last callee : Expr}

theorem namesBetween_of_eq_false {expr : Expr} (idle : headsRun before after = false) :
    namesBetween before after expr = expr.appliedNames := by
  simp [namesBetween, idle]

/-- The operands of an operator begin no run with what is beyond it. -/
theorem namesApplied_operate {operator : Operator} (kind : token.kind = .operator operator)
    (loose : startsAtom after = false)
    (head : namesApplied before (token :: (right ++ after)) left =
      namesBetween before (token :: (right ++ after)) first)
    (next : namesApplied (token :: (left.reverse ++ before)) after right =
      namesBetween (token :: (left.reverse ++ before)) after last) :
    namesApplied before after (left ++ token :: right) =
      namesBetween before after (.binary operator first last) := by
  have noRun : headsRun before (token :: (right ++ after)) = false :=
    headsRun_eq_false_of_startsAtom (by simp [startsAtom, kind, Token.Kind.startsAtom])
      (.inr (by simp [kind]))
  have noRunAfter : headsRun (token :: (left.reverse ++ before)) after = false :=
    headsRun_eq_false_of_startsAtom loose (.inl (by simp [kind]))
  rw [namesApplied_append, List.cons_append, head, namesApplied_cons_of_ne (by simp [kind]), next,
    namesBetween_of_eq_false noRun, namesBetween_of_eq_false noRunAfter]
  simp [namesBetween, Expr.appliedNames_binary, Expr.ownName]

end Parts

/-- The names applied among the tokens of an expression are those of its tree. -/
theorem Derives.namesApplied_eq {level : Level} {tokens : List Token} {expr : Expr} {nesting : Nat}
    (derives : Derives level tokens expr nesting) (before after : List Token)
    (stands : level.Stands before after) :
    namesApplied before after tokens = namesBetween before after expr := by
  induction derives generalizing before after with
  | @name token kind =>
    simp [namesApplied, kind, namesBetween, Expr.appliedNames, Expr.nodes, Expr.calleeName?,
      Expr.ownName]
  | @integer token value kind =>
    rw [namesApplied_cons_of_ne (by simp [kind])]
    simp [namesApplied, namesBetween, Expr.appliedNames, Expr.nodes, Expr.calleeName?, Expr.ownName]
  | @parentheses opening closing tokens expr nesting opens closes inner ih =>
    have whole := ih (opening :: before) (closing :: after)
      ⟨⟨opening, rfl, by simp [opens, Token.Kind.opensOperand]⟩,
        by simp [Infix.startsAtom, closes, Token.Kind.startsAtom]⟩
    rw [namesApplied_cons_of_ne (by simp [opens]), namesApplied_append, List.singleton_append, whole,
      namesApplied_cons_of_ne (by simp [closes])]
    simp [namesApplied, namesBetween, headsRun_parentheses opens closes]
  | @apply left right callee argument m n head next headIh nextIh =>
    have heads : headsRun before (right ++ after) = true :=
      headsRun_of_startsAtom stands (next.startsAtom after)
    rw [namesApplied_append, headIh before (right ++ after) trivial, nextIh _ after trivial,
      namesBetween_of_eq_false (head.headsRun_reverse_append before after)]
    simp [namesBetween, heads, Expr.appliedNames_application, Expr.ownName]
  | @extend left right callee argument arguments m n head next headIh nextIh =>
    rw [namesApplied_append, headIh before (right ++ after) stands, nextIh _ after trivial,
      namesBetween_of_eq_false (head.headsRun_reverse_append before after)]
    simp [namesBetween, Expr.appliedNames_application, Expr.ownName]
  | lone atom ih => exact ih before after trivial
  | run atoms ih => exact ih before after stands.1
  | factor application ih => exact ih before after stands
  | @multiply left right token operator first last m n head kind multiplies next headIh nextIh =>
    apply namesApplied_operate kind stands.2
    · exact headIh _ _ ⟨stands.1, by simp [Infix.startsAtom, kind, Token.Kind.startsAtom]⟩
    · exact nextIh _ _ ⟨⟨token, rfl, by simp [kind, Token.Kind.opensOperand]⟩, stands.2⟩
  | term product ih => exact ih before after stands
  | @add left right token operator first last m n head kind adds next headIh nextIh =>
    apply namesApplied_operate kind stands.2
    · exact headIh _ _ ⟨stands.1, by simp [Infix.startsAtom, kind, Token.Kind.startsAtom]⟩
    · exact nextIh _ _ ⟨⟨token, rfl, by simp [kind, Token.Kind.opensOperand]⟩, stands.2⟩

end Infix

end ShaderDefs
