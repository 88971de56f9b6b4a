import ShaderDefs.Proofs.Expr.WellFormed
import ShaderDefs.Proofs.Infix.Grammar
import ShaderDefs.Proofs.Token.Scanning

/-! Writing trees as infix text. Parentheses stand where the tree needs them and may stand around any
part of it besides. However a tree is written, its tokens derive it. -/

set_option autoImplicit false

namespace ShaderDefs.Infix

/-- The words are the trees written one after the other, each binding at least as tightly as asked
for, and their parentheses nest to the given number. Sums bind least, then come products,
applications and atoms. -/
inductive Writes : Nat → List Expr → List String → Nat → Prop where
  | nil {least : Nat} : Writes least [] [] 0
  | literal {least nesting : Nat} {value : Int64} {exprs : List Expr} {words : List String}
      (natural : 0 ≤ value.toInt) (more : Writes least exprs words nesting) :
      Writes least (.literal value :: exprs) (Text.Integer.write value :: words) nesting
  | identifier {least nesting : Nat} {name : String} {exprs : List Expr} {words : List String}
      (named : Text.IsName name) (more : Writes least exprs words nesting) :
      Writes least (.identifier name :: exprs) (name :: words) nesting
  | binary {least leftNesting rightNesting nesting : Nat} {operator : Operator} {left right : Expr}
      {exprs : List Expr} {leftWords rightWords words : List String}
      (tight : least ≤ operator.precedence)
      (head : Writes operator.precedence [left] leftWords leftNesting)
      (next : Writes (operator.precedence + 1) [right] rightWords rightNesting)
      (more : Writes least exprs words nesting) :
      Writes least (.binary operator left right :: exprs)
        (leftWords ++ operator.symbol.toString :: rightWords ++ words)
        (max (max leftNesting rightNesting) nesting)
  | application {least itemsNesting nesting : Nat} {callee argument : Expr}
      {arguments exprs : List Expr} {inner words : List String} (tight : least ≤ 3)
      (items : Writes 4 (callee :: argument :: arguments) inner itemsNesting)
      (more : Writes least exprs words nesting) :
      Writes least (.application callee (argument :: arguments) :: exprs) (inner ++ words)
        (max itemsNesting nesting)
  | parentheses {least innerNesting nesting : Nat} {expr : Expr} {exprs : List Expr}
      {inner words : List String} (whole : Writes 1 [expr] inner innerNesting)
      (more : Writes least exprs words nesting) :
      Writes least (expr :: exprs) ("(" :: (inner ++ [")"]) ++ words) (max (innerNesting + 1) nesting)

theorem Writes.append {least : Nat} {first last : List Expr} {front back : List String}
    {left right : Nat} (head : Writes least first front left) (tail : Writes least last back right) :
    Writes least (first ++ last) (front ++ back) (max left right) := by
  induction head with
  | nil => rwa [Nat.zero_max]
  | literal natural _ ih => exact .literal natural (ih tail)
  | identifier named _ ih => exact .identifier named (ih tail)
  | binary tight head next _ _ _ ih =>
    rw [Nat.max_assoc, List.append_assoc]
    exact .binary tight head next (ih tail)
  | application tight items _ _ ih =>
    rw [Nat.max_assoc, List.append_assoc]
    exact .application tight items (ih tail)
  | parentheses whole _ _ ih =>
    rw [Nat.max_assoc, List.append_assoc]
    exact .parentheses whole (ih tail)

theorem Writes.isLexeme {least : Nat} {exprs : List Expr} {words : List String} {nesting : Nat}
    (writes : Writes least exprs words nesting) : ∀ word ∈ words, Token.IsLexeme word := by
  induction writes with
  | nil => exact nofun
  | literal natural _ ih =>
    have decimal := (Text.Integer.numeral_write natural).1
    exact List.forall_mem_cons.2 ⟨(Token.isLexeme_of_isDigits decimal).1, ih⟩
  | identifier named _ ih =>
    exact List.forall_mem_cons.2 ⟨(Token.isLexeme_of_isName named).1, ih⟩
  | @binary _ _ _ _ operator _ _ _ _ _ _ _ _ _ _ headIh nextIh ih =>
    simp only [List.forall_mem_append, List.forall_mem_cons]
    exact ⟨⟨headIh, (Token.isLexeme_operator operator).1, nextIh⟩, ih⟩
  | application _ _ _ itemsIh ih => exact List.forall_mem_append.2 ⟨itemsIh, ih⟩
  | parentheses _ _ wholeIh ih =>
    simp only [List.forall_mem_append, List.forall_mem_cons]
    exact ⟨⟨Token.isLexeme_opening.1, wholeIh, Token.isLexeme_closing.1, nofun⟩, ih⟩

def Level.ofLeast : Nat → Level
  | 0 | 1 => .sum
  | 2 => .product
  | 3 => .application
  | _ => .atom

theorem Derives.loosen {tokens : List Token} {expr : Expr} {nesting : Nat} {least tighter : Nat}
    (derives : Derives (.ofLeast tighter) tokens expr nesting) (loose : least ≤ tighter) :
    Derives (.ofLeast least) tokens expr nesting := by
  induction loose with
  | refl => exact derives
  | @step tighter _ ih =>
    apply ih
    match tighter with
    | 0 => exact derives
    | 1 => exact .term derives
    | 2 => exact .factor derives
    | 3 => exact .lone derives
    | _ + 4 => exact derives

theorem Derives.loosen_atom {tokens : List Token} {expr : Expr} {nesting : Nat}
    (derives : Derives .atom tokens expr nesting) (least : Nat) :
    Derives (.ofLeast least) tokens expr nesting := by
  -- From the tightest layer on there are only atoms.
  have atom : Derives (.ofLeast (max least 4)) tokens expr nesting := by
    obtain ⟨more, same⟩ := Nat.exists_eq_add_of_le (Nat.le_max_right least 4)
    rw [same, Nat.add_comm]
    exact derives
  exact atom.loosen (Nat.le_max_left least 4)

theorem Derives.operate {left right : List Token} {token : Token} {operator : Operator}
    {first last : Expr} {leftNesting rightNesting : Nat}
    (head : Derives (.ofLeast operator.precedence) left first leftNesting)
    (kind : token.kind = .operator operator)
    (next : Derives (.ofLeast (operator.precedence + 1)) right last rightNesting) :
    Derives (.ofLeast operator.precedence) (left ++ token :: right) (.binary operator first last)
      (max leftNesting rightNesting) := by
  cases operator with
  | add => exact .add head kind (.inl rfl) next
  | subtract => exact .add head kind (.inr rfl) next
  | multiply => exact .multiply head kind (.inl rfl) next
  | divide => exact .multiply head kind (.inr rfl) next

inductive DerivesEach (level : Level) : List Token → List Expr → Nat → Prop where
  | nil : DerivesEach level [] [] 0
  | cons {tokens rest : List Token} {expr : Expr} {exprs : List Expr} {first last : Nat}
      (head : Derives level tokens expr first) (tail : DerivesEach level rest exprs last) :
      DerivesEach level (tokens ++ rest) (expr :: exprs) (max first last)

theorem DerivesEach.derives {level : Level} {tokens : List Token} {expr : Expr} {nesting : Nat}
    (each : DerivesEach level tokens [expr] nesting) : Derives level tokens expr nesting := by
  cases each with
  | cons head tail =>
    cases tail
    rwa [List.append_nil, Nat.max_zero]

theorem Derives.run_append {tokens more : List Token} {callee : Expr} {arguments others : List Expr}
    {first last : Nat} (run : Derives .run tokens (.application callee arguments) first)
    (each : DerivesEach .atom more others last) :
    Derives .run (tokens ++ more) (.application callee (arguments ++ others)) (max first last) := by
  induction each generalizing tokens arguments first with
  | nil => simpa using run
  | cons head _ ih =>
    have longer := ih (run.extend head)
    rw [← Nat.max_assoc]
    simpa using longer

theorem DerivesEach.run {tokens : List Token} {callee argument : Expr} {arguments : List Expr}
    {nesting : Nat} (each : DerivesEach .atom tokens (callee :: argument :: arguments) nesting) :
    Derives .run tokens (.application callee (argument :: arguments)) nesting := by
  cases each with
  | cons head tail =>
  cases tail with
  | cons next others =>
  have longer := (head.apply next).run_append others
  rw [List.append_assoc, Nat.max_assoc] at longer
  exact longer

/-- The tokens are the words, each of the kind that it has as a text of its own. -/
def Transcribes (tokens : List Token) (words : List String) : Prop :=
  tokens.map (fun token => (token.kind, token.text)) =
    words.map fun word => (Token.Kind.ofText word, word)

theorem Transcribes.append {tokens : List Token} {front back : List String}
    (transcribes : Transcribes tokens (front ++ back)) :
    ∃ first last, tokens = first ++ last ∧ Transcribes first front ∧ Transcribes last back := by
  unfold Transcribes at transcribes
  rw [List.map_append, List.map_eq_append_iff] at transcribes
  exact transcribes

theorem Transcribes.cons {tokens : List Token} {word : String} {words : List String}
    (transcribes : Transcribes tokens (word :: words)) :
    ∃ token rest, tokens = token :: rest ∧ token.kind = .ofText word ∧ token.text = word ∧
      Transcribes rest words := by
  obtain ⟨token, rest, same, pair, others⟩ := List.map_eq_cons_iff.1 transcribes
  exact ⟨token, rest, same, congrArg Prod.fst pair, congrArg Prod.snd pair, others⟩

theorem Transcribes.texts {tokens : List Token} {words : List String}
    (transcribes : Transcribes tokens words) : tokens.map (·.text) = words := by
  have same := congrArg (List.map Prod.snd) transcribes
  rw [List.map_map, List.map_map] at same
  exact same.trans (List.map_id words)

theorem Transcribes.kind_of_mem {tokens : List Token} {words : List String}
    (transcribes : Transcribes tokens words) {token : Token} (member : token ∈ tokens) :
    ∃ word ∈ words, token.kind = .ofText word := by
  have pair : (token.kind, token.text) ∈ words.map fun word => (Token.Kind.ofText word, word) := by
    rw [← transcribes]
    exact List.mem_map_of_mem member
  obtain ⟨word, inside, same⟩ := List.mem_map.1 pair
  exact ⟨word, inside, (congrArg Prod.fst same).symm⟩

/-- However trees are written, the tokens derive them. -/
theorem Writes.derivesEach {least : Nat} {exprs : List Expr} {words : List String} {nesting : Nat}
    (writes : Writes least exprs words nesting) {tokens : List Token}
    (transcribes : Transcribes tokens words) :
    DerivesEach (.ofLeast least) tokens exprs nesting := by
  induction writes generalizing tokens with
  | nil =>
    cases List.map_eq_nil_iff.1 transcribes
    exact .nil
  | @literal least nesting value _ _ natural _ ih =>
    obtain ⟨token, rest, rfl, kind, text, others⟩ := transcribes.cons
    have numeral := Text.Integer.numeral_write natural
    rw [(Token.isLexeme_of_isDigits numeral.1).2] at kind
    rw [← text] at numeral
    simpa using DerivesEach.cons ((Derives.integer kind numeral).loosen_atom least) (ih others)
  | @identifier least nesting name _ _ named _ ih =>
    obtain ⟨token, rest, rfl, kind, rfl, others⟩ := transcribes.cons
    rw [(Token.isLexeme_of_isName named).2] at kind
    simpa using DerivesEach.cons ((Derives.name kind).loosen_atom least) (ih others)
  | @binary _ _ _ _ operator _ _ _ _ _ _ tight _ _ _ headIh nextIh ih =>
    -- The tokens fall into parts as the words do, the operator between the operands.
    obtain ⟨whole, rest, rfl, transcribesWhole, others⟩ := transcribes.append
    obtain ⟨left, tail, rfl, transcribesLeft, transcribesTail⟩ := transcribesWhole.append
    obtain ⟨token, right, rfl, kind, _, transcribesRight⟩ := transcribesTail.cons
    rw [(Token.isLexeme_operator operator).2] at kind
    have joined := (headIh transcribesLeft).derives.operate kind (nextIh transcribesRight).derives
    exact .cons (joined.loosen tight) (ih others)
  | application tight _ _ itemsIh ih =>
    obtain ⟨inner, rest, rfl, transcribesInner, others⟩ := transcribes.append
    have run : Derives (.ofLeast 3) inner _ _ := .run (itemsIh transcribesInner).run
    exact .cons (run.loosen tight) (ih others)
  | parentheses _ _ wholeIh ih =>
    obtain ⟨whole, rest, rfl, transcribesWhole, others⟩ := transcribes.append
    obtain ⟨opening, tail, rfl, opens, _, transcribesTail⟩ := transcribesWhole.cons
    obtain ⟨inner, last, rfl, transcribesInner, transcribesLast⟩ := transcribesTail.append
    obtain ⟨closing, none, rfl, closes, _, nothing⟩ := transcribesLast.cons
    cases List.map_eq_nil_iff.1 nothing
    rw [Token.isLexeme_opening.2] at opens
    rw [Token.isLexeme_closing.2] at closes
    have atom := Derives.parentheses opens closes (wholeIh transcribesInner).derives
    exact .cons (atom.loosen_atom _) (ih others)

end ShaderDefs.Infix
