import ShaderDefs.Proofs.Infix.Completeness
import ShaderDefs.Proofs.Infix.Writing

/-! Reading infix texts. However a tree is written with blanks between its words, the text is read back
to it within the limits. Written with the fewest parentheses, they never nest as deep as the tree. -/

set_option autoImplicit false

namespace ShaderDefs

namespace Infix

open Reading (TooDeep)

theorem Derives.read {tokens : List Token} {expr : Expr} {nesting : Nat} {lineEnd inputEnd : Token}
    (derives : Derives .sum tokens expr nesting) (endsLine : lineEnd.kind = .lineEnd)
    (endsInput : inputEnd.kind = .inputEnd) :
    (Fits maxDepth expr nesting → Infix.read (tokens ++ [lineEnd, inputEnd]) = .ok expr) ∧
      (¬Fits maxDepth expr nesting → TooDeep (Infix.read (tokens ++ [lineEnd, inputEnd]))) := by
  have known : (tokens ++ [lineEnd, inputEnd]).findSome? Fault.ofToken? = none := by
    rw [List.findSome?_append, List.findSome?_eq_none_iff.2 fun token member =>
      (derives.kind_of_mem member).2]
    simp [Fault.ofToken?, endsLine, endsInput]
  have loose : hold [lineEnd, inputEnd] = 0 := hold_of_isEnd (by simp [endsLine, Token.Kind.isEnd]) _
  have settles := derives.settles (finishOf (tokens ++ [lineEnd, inputEnd])) maxDepth loose
  unfold Infix.read
  rw [known]
  constructor
  · intro fits
    obtain ⟨_, read⟩ := settles.yields fits
    simp [read, endsLine, endsInput, expectEnd, Token.Kind.isEnd]
  · intro deep
    obtain ⟨position, found, read⟩ := settles.tooDeep deep
    exact ⟨position, found, by simp only [read]⟩

section Writes

variable {expr : Expr} {words : List String} {nesting : Nat}
variable (writes : Writes 1 [expr] words nesting)
include writes

/-- However a tree is written and its words are laid out, the text is read back exactly within the
limits. -/
theorem read_of_laidOut {text : String} (laidOut : Token.LaidOut words text.toList) :
    (Fits maxDepth expr nesting → Infix.read (Token.ofText text) = .ok expr) ∧
      (¬Fits maxDepth expr nesting → TooDeep (Infix.read (Token.ofText text))) := by
  have lexemes := writes.isLexeme
  -- From text to words, from words to tokens, and from tokens to the tree.
  have transcribes : Transcribes (Token.scanLine 1 1 text.toList) words :=
    laidOut.scanLine_eq lexemes 1 1
  have derives := (writes.derivesEach transcribes).derives
  rw [Token.ofText_of_notMem (laidOut.notMem lexemes) derives.ne_nil]
  exact derives.read rfl rfl

theorem read_of_writes :
    (Fits maxDepth expr nesting →
        Infix.read (Token.ofText (" ".intercalate words)) = .ok expr) ∧
      (¬Fits maxDepth expr nesting → TooDeep (Infix.read (Token.ofText (" ".intercalate words)))) :=
  read_of_laidOut writes (Token.laidOut_intercalate words)

end Writes

end Infix

namespace Expr

def enclose (needed : Bool) (words : List String) : List String :=
  if needed then "(" :: (words ++ [")"]) else words

mutual

/-- The words of the tree, binding at least as tightly as asked for, with the fewest parentheses. -/
def words (least : Nat) : Expr → List String
  | .literal value => [Text.Integer.write value]
  | .identifier name => [name]
  | .binary operator left right =>
    enclose (operator.precedence < least)
      (left.words operator.precedence ++
        operator.symbol.toString :: right.words (operator.precedence + 1))
  | .application callee arguments => enclose (3 < least) (callee.words 4 ++ wordsOfAll arguments)

def wordsOfAll : List Expr → List String
  | [] => []
  | expr :: rest => expr.words 4 ++ wordsOfAll rest

end

def write (expr : Expr) : String := " ".intercalate (expr.words 1)

/-- No literal of the tree has a sign, which infix text cannot have either. -/
def Unsigned (expr : Expr) : Prop := ∀ value, .literal value ∈ expr.nodes → 0 ≤ value.toInt

theorem Unsigned.operands {operator : Operator} {left right : Expr}
    (unsigned : (Expr.binary operator left right).Unsigned) : left.Unsigned ∧ right.Unsigned := by
  constructor
  · intro value member
    exact unsigned value (by simp [nodes, member])
  · intro value member
    exact unsigned value (by simp [nodes, member])

theorem Unsigned.items {callee : Expr} {arguments : List Expr}
    (unsigned : (Expr.application callee arguments).Unsigned) :
    callee.Unsigned ∧ ∀ argument ∈ arguments, argument.Unsigned := by
  constructor
  · intro value member
    exact unsigned value (by simp [nodes, member])
  · intro argument inside value member
    refine unsigned value ?_
    simp only [nodes, nodesOfAll_eq_flatMap, List.mem_cons, List.mem_append, List.mem_flatMap]
    exact .inr (.inr ⟨argument, inside, member⟩)

theorem exists_writes_enclose {expr : Expr} {words : List String} {bound nesting : Nat}
    (positive : 1 ≤ bound) (each : ∀ least ≤ bound, Infix.Writes least [expr] words nesting)
    (least : Nat) :
    ∃ total ≤ nesting + 1, Infix.Writes least [expr] (enclose (bound < least) words) total := by
  unfold enclose
  split
  next =>
    have enclosed := Infix.Writes.parentheses (each 1 positive) (.nil : Infix.Writes least [] [] 0)
    rw [List.append_nil, Nat.max_zero] at enclosed
    exact ⟨nesting + 1, Nat.le_refl _, enclosed⟩
  next loose => exact ⟨nesting, Nat.le_succ _, each least (by simpa using loose)⟩

theorem exists_writes_wordsOfAll {exprs : List Expr}
    (each : ∀ expr ∈ exprs, ∃ nesting ≤ expr.height, Infix.Writes 4 [expr] (expr.words 4) nesting) :
    ∃ nesting ≤ heightOfAll exprs, Infix.Writes 4 exprs (wordsOfAll exprs) nesting := by
  induction exprs with
  | nil => exact ⟨0, Nat.le_refl _, .nil⟩
  | cons expr exprs ih =>
    obtain ⟨⟨first, firstLow, head⟩, others⟩ := List.forall_mem_cons.1 each
    obtain ⟨last, lastLow, tail⟩ := ih others
    refine ⟨max first last, ?_, head.append tail⟩
    rw [heightOfAll]
    omega

/-- Only compound parts are put in parentheses, so these nest at most as deep as the tree is high. -/
theorem exists_writes_words {expr : Expr} (formed : expr.WellFormed) (unsigned : expr.Unsigned)
    (least : Nat) :
    ∃ nesting ≤ expr.height, Infix.Writes least [expr] (expr.words least) nesting := by
  induction formed generalizing least with
  | literal value =>
    exact ⟨0, Nat.le_refl _, .literal (unsigned value (by simp [nodes])) .nil⟩
  | identifier named => exact ⟨0, Nat.le_refl _, .identifier named .nil⟩
  | @binary operator left right _ _ leftIh rightIh =>
    obtain ⟨leftUnsigned, rightUnsigned⟩ := unsigned.operands
    obtain ⟨first, firstLow, head⟩ := leftIh leftUnsigned operator.precedence
    obtain ⟨last, lastLow, next⟩ := rightIh rightUnsigned (operator.precedence + 1)
    -- Without parentheses the operation stands wherever it binds tightly enough.
    have bare : ∀ least ≤ operator.precedence, Infix.Writes least [.binary operator left right]
        (left.words operator.precedence ++
          operator.symbol.toString :: right.words (operator.precedence + 1)) (max first last) := by
      intro least tight
      simpa using Infix.Writes.binary tight head next .nil
    obtain ⟨total, low, writes⟩ := exists_writes_enclose (by cases operator <;> decide) bare least
    refine ⟨total, ?_, writes⟩
    rw [height]
    omega
  | @application callee arguments some _ _ calleeIh argumentsIh =>
    obtain ⟨calleeUnsigned, argumentsUnsigned⟩ := unsigned.items
    obtain ⟨first, firstLow, head⟩ := calleeIh calleeUnsigned 4
    obtain ⟨last, lastLow, next⟩ := exists_writes_wordsOfAll
      fun argument member => argumentsIh argument member (argumentsUnsigned argument member) 4
    obtain ⟨argument, others, rfl⟩ := List.exists_cons_of_ne_nil some
    have bare : ∀ least ≤ 3, Infix.Writes least [.application callee (argument :: others)]
        (callee.words 4 ++ wordsOfAll (argument :: others)) (max first last) := by
      intro least tight
      simpa using Infix.Writes.application tight (head.append next) .nil
    obtain ⟨total, low, writes⟩ := exists_writes_enclose (by decide) bare least
    refine ⟨total, ?_, writes⟩
    rw [height]
    omega

end Expr

end ShaderDefs
