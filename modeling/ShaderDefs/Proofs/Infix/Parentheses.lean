import ShaderDefs.Proofs.Infix.Text

/-! Parentheses in infix texts. A tree needs some of them, and any others may stand around its parts.
Whatever is added, the text is read back to the tree until the parentheses nest too deep. -/

set_option autoImplicit false

namespace ShaderDefs

namespace Infix

def isParenthesis (word : String) : Bool := word = "(" || word = ")"

def nestingFrom (opened : Nat) : List String → Nat
  | [] => opened
  | word :: words =>
    max opened (nestingFrom
      (if word = "(" then opened + 1 else if word = ")" then opened - 1 else opened) words)

/-- How deep the parentheses among the words nest. -/
def nesting (words : List String) : Nat := nestingFrom 0 words

/-- The second words are the first ones with any number of parentheses put between them. -/
def AddsParentheses (few many : List String) : Prop :=
  few.Sublist many ∧ many.filter (!isParenthesis ·) = few.filter (!isParenthesis ·)

theorem isParenthesis_of_kind {word : String} {kind : Token.Kind}
    (same : Token.Kind.ofText word = kind) (noOpening : kind ≠ .opening)
    (noClosing : kind ≠ .closing) : isParenthesis word = false := by
  subst same
  rw [isParenthesis, Bool.or_eq_false_iff, decide_eq_false_iff_not, decide_eq_false_iff_not]
  constructor
  · rintro rfl
    exact noOpening Token.isLexeme_opening.2
  · rintro rfl
    exact noClosing Token.isLexeme_closing.2

section Nesting

variable {opened : Nat} {word : String} {words : List String}

theorem le_nestingFrom : opened ≤ nestingFrom opened words := by
  cases words with
  | nil => exact Nat.le_refl _
  | cons word words => exact Nat.le_max_left _ _

theorem nestingFrom_opening : nestingFrom opened ("(" :: words) = nestingFrom (opened + 1) words := by
  have low : opened + 1 ≤ nestingFrom (opened + 1) words := le_nestingFrom
  rw [nestingFrom, if_pos rfl]
  omega

theorem nestingFrom_closing :
    nestingFrom (opened + 1) (")" :: words) = max (opened + 1) (nestingFrom opened words) := by
  rw [nestingFrom, if_neg (by decide), if_pos rfl, Nat.add_sub_cancel]

theorem nestingFrom_cons (other : isParenthesis word = false) :
    nestingFrom opened (word :: words) = nestingFrom opened words := by
  have low : opened ≤ nestingFrom opened words := le_nestingFrom
  obtain ⟨noOpening, noClosing⟩ := Bool.or_eq_false_iff.1 other
  rw [nestingFrom, if_neg (of_decide_eq_false noOpening), if_neg (of_decide_eq_false noClosing)]
  omega

end Nesting

namespace AddsParentheses

variable {few many others : List String}

theorem refl (words : List String) : AddsParentheses words words := ⟨.refl words, rfl⟩

theorem append {less more : List String} (front : AddsParentheses few many)
    (back : AddsParentheses less more) : AddsParentheses (few ++ less) (many ++ more) :=
  ⟨front.1.append back.1, by rw [List.filter_append, List.filter_append, front.2, back.2]⟩

theorem cons (word : String) (adds : AddsParentheses few many) :
    AddsParentheses (word :: few) (word :: many) := (refl [word]).append adds

theorem enclose (needed : Bool) (adds : AddsParentheses few many) :
    AddsParentheses (Expr.enclose needed few) ("(" :: (many ++ [")"])) := by
  cases needed with
  | true => exact cons "(" (adds.append (refl [")"]))
  | false =>
    refine ⟨(adds.1.trans (List.sublist_append_left _ _)).cons _, ?_⟩
    rw [List.filter_cons_of_neg (by decide), List.filter_append, adds.2]
    simp [Expr.enclose, isParenthesis]

end AddsParentheses

end Infix

namespace Expr

theorem wordsOfAll_eq_flatMap (exprs : List Expr) : wordsOfAll exprs = exprs.flatMap (words 4) := by
  induction exprs with
  | nil => rfl
  | cons expr exprs ih => rw [wordsOfAll, List.flatMap_cons, ih]

theorem exists_words_eq_enclose (least : Nat) (expr : Expr) :
    ∃ needed, expr.words least = enclose needed (expr.words 1) := by
  cases expr with
  | literal value => exact ⟨false, rfl⟩
  | identifier name => exact ⟨false, rfl⟩
  | binary operator left right =>
    have loose : decide (operator.precedence < 1) = false := by cases operator <;> rfl
    exact ⟨operator.precedence < least, by simp only [words, loose]; rfl⟩
  | application callee arguments => exact ⟨3 < least, rfl⟩

end Expr

namespace Infix

variable {least depth : Nat} {exprs : List Expr} {words : List String}

/-- Every pair is closed again, so what is open before the words is open after them. -/
theorem Writes.nestingFrom_append (writes : Writes least exprs words depth) (opened : Nat)
    (rest : List String) :
    nestingFrom opened (words ++ rest) = max (opened + depth) (nestingFrom opened rest) := by
  induction writes generalizing opened rest with
  | nil =>
    have low : opened ≤ nestingFrom opened rest := le_nestingFrom
    rw [List.nil_append]
    omega
  | literal natural _ ih =>
    have decimal := (Text.Integer.numeral_write natural).1
    rw [List.cons_append, nestingFrom_cons
      (isParenthesis_of_kind (Token.isLexeme_of_isDigits decimal).2 nofun nofun), ih]
  | identifier named _ ih =>
    rw [List.cons_append, nestingFrom_cons
      (isParenthesis_of_kind (Token.isLexeme_of_isName named).2 nofun nofun), ih]
  | @binary _ _ _ _ operator _ _ _ _ _ _ _ _ _ _ headIh nextIh ih =>
    rw [List.append_assoc, List.append_assoc, List.cons_append, headIh, nestingFrom_cons
      (isParenthesis_of_kind (Token.isLexeme_operator operator).2 nofun nofun), nextIh, ih]
    omega
  | application _ _ _ itemsIh ih =>
    rw [List.append_assoc, itemsIh, ih]
    omega
  | parentheses _ _ wholeIh ih =>
    rw [List.append_assoc, List.cons_append, nestingFrom_opening, List.append_assoc, wholeIh,
      List.singleton_append, nestingFrom_closing, ih]
    omega

theorem Writes.nesting_eq (writes : Writes least exprs words depth) : nesting words = depth := by
  have whole := writes.nestingFrom_append 0 []
  rw [List.append_nil, nestingFrom] at whole
  rw [nesting, whole]
  omega

/-- However trees are written, they are written with the words they need and further parentheses. -/
theorem Writes.addsParentheses (writes : Writes least exprs words depth) :
    AddsParentheses (exprs.flatMap (Expr.words least)) words := by
  induction writes with
  | nil => exact .refl []
  | literal natural _ ih => exact ih.cons _
  | identifier named _ ih => exact ih.cons _
  | @binary least _ _ _ operator left right _ _ _ _ tight _ _ _ headIh nextIh ih =>
    rw [List.flatMap_singleton] at headIh nextIh
    have bare : (Expr.binary operator left right).words least = left.words operator.precedence ++
        operator.symbol.toString :: right.words (operator.precedence + 1) := by
      rw [Expr.words, decide_eq_false (Nat.not_lt.2 tight)]
      rfl
    rw [List.flatMap_cons, bare]
    exact (headIh.append (nextIh.cons _)).append ih
  | @application least _ _ callee argument arguments _ _ _ tight _ _ itemsIh ih =>
    have bare : (Expr.application callee (argument :: arguments)).words least =
        (callee :: argument :: arguments).flatMap (Expr.words 4) := by
      rw [Expr.words, decide_eq_false (Nat.not_lt.2 tight), Expr.wordsOfAll_eq_flatMap]
      rfl
    rw [List.flatMap_cons, bare]
    exact itemsIh.append ih
  | @parentheses least _ _ expr _ _ _ _ _ wholeIh ih =>
    obtain ⟨needed, same⟩ := expr.exists_words_eq_enclose least
    rw [List.flatMap_cons, same]
    rw [List.flatMap_singleton] at wholeIh
    exact (wholeIh.enclose needed).append ih

theorem Writes.enclosed {expr : Expr} (writes : Writes 1 [expr] words depth) (count : Nat) :
    Writes 1 [expr] (List.replicate count "(" ++ words ++ List.replicate count ")")
      (depth + count) := by
  induction count with
  | zero => simpa using writes
  | succ count ih =>
    have pair := Writes.parentheses ih (.nil : Writes 1 [] [] 0)
    rw [List.replicate_succ, List.replicate_succ', ← Nat.add_assoc]
    simpa using pair

/-- Every tree that infix text can hold can be written, and parentheses do what they must. With the
fewest of them its text stays within the limit. However it is written, with any pairs around any parts
of it and any gaps, only parentheses are added, and the text is read back to the tree as long as they
nest within the limit. Beyond it the fault says so. -/
theorem read_eq_of_nesting_le {expr : Expr} (formed : expr.WellFormed) (unsigned : expr.Unsigned)
    (shallow : expr.depth ≤ maxDepth) :
    ((∃ depth, Writes 1 [expr] (expr.words 1) depth) ∧ nesting (expr.words 1) ≤ maxDepth) ∧
      ∀ words depth, Writes 1 [expr] words depth →
        AddsParentheses (expr.words 1) words ∧
        ∀ text : String, Token.LaidOut words text.toList →
          (nesting words ≤ maxDepth → Infix.read (Token.ofText text) = .ok expr) ∧
          (maxDepth < nesting words → ∃ position found,
            Infix.read (Token.ofText text) =
              .error (.unexpected position .shallowExpression found)) := by
  refine ⟨?_, fun words depth writes => ⟨?_, fun text laidOut => ?_⟩⟩
  · obtain ⟨depth, low, writes⟩ := expr.exists_writes_words formed unsigned 1
    have deeper := expr.depth_eq_height_add_one
    refine ⟨⟨depth, writes⟩, ?_⟩
    rw [writes.nesting_eq]
    omega
  · simpa using writes.addsParentheses
  · obtain ⟨yields, tooDeep⟩ := read_of_laidOut writes laidOut
    rw [writes.nesting_eq]
    exact ⟨fun nests => yields ⟨nests, shallow⟩, fun deep => tooDeep fun fits => by
      have := fits.1
      omega⟩

/-- Without blanks and with a pair that could be left out the text is read back, but not with one pair
more than there may be around the whole. -/
theorem read_difference_with_parentheses :
    let inner : Expr := .binary .subtract (.identifier "b") (.literal 1)
    let expr : Expr := .binary .subtract (.identifier "a") inner
    expr.WellFormed ∧ expr.Unsigned ∧ expr.depth ≤ maxDepth ∧ expr.write = "a - ( b - 1 )" ∧
      Infix.read (Token.ofText "a - ( b - 1 )") = .ok expr ∧
      Infix.read (Token.ofText "a-((b) -1)") = .ok expr ∧
      ∃ words, maxDepth < nesting words ∧ ∃ position found,
        Infix.read (Token.ofText (" ".intercalate words)) =
          .error (.unexpected position .shallowExpression found) := by
  intro inner expr
  have formed : expr.WellFormed :=
    .binary (.identifier ⟨'a', [], rfl, by decide, nofun⟩)
      (.binary (.identifier ⟨'b', [], rfl, by decide, nofun⟩) (.literal 1))
  have unsigned : expr.Unsigned := by
    intro value member
    simp only [expr, inner, Expr.nodes, List.mem_cons, List.mem_append, reduceCtorEq,
      Expr.literal.injEq, List.not_mem_nil, false_or, or_false] at member
    subst member
    decide
  obtain ⟨⟨⟨depth, fewest⟩, nests⟩, all⟩ := read_eq_of_nesting_le formed unsigned (by decide)
  have shown : expr.write = "a - ( b - 1 )" := by decide +kernel
  -- A pair around the second name, and a gap only before the second sign.
  have laidOut : Token.LaidOut ["a", "-", "(", "(", "b", ")", "-", "1", ")"] "a-((b) -1)".toList := by
    have back : Token.LaidOut ["-", "1", ")"] ['-', '1', ')'] :=
      ((Token.laidOut_singleton ")").word_append (by decide)).word_append (by decide)
    have middle : Token.LaidOut ["(", "b", ")", "-", "1", ")"] "(b) -1)".toList :=
      (((back.gap_cons (by decide)).word_append (by decide)).word_append (by decide)).word_append
        (by decide)
    exact ((middle.word_append (by decide)).word_append (by decide)).word_append (by decide)
  have writes : Writes 1 [expr] ["a", "-", "(", "(", "b", ")", "-", "1", ")"] 2 := by
    have one : Writes 2 [.literal 1] ["1"] 0 := .literal (by decide) .nil
    have first : Writes 1 [.identifier "a"] ["a"] 0 :=
      .identifier ⟨'a', [], rfl, by decide, nofun⟩ .nil
    have second : Writes 1 [.identifier "b"] ["(", "b", ")"] 1 :=
      .parentheses (.identifier ⟨'b', [], rfl, by decide, nofun⟩ .nil) .nil
    have inside : Writes 1 [inner] ["(", "b", ")", "-", "1"] 1 :=
      @Writes.binary 1 1 0 0 .subtract _ _ _ _ _ _ (Nat.le_refl 1) second one .nil
    exact @Writes.binary 1 0 2 0 .subtract _ _ _ _ _ _ (Nat.le_refl 1) first
      (.parentheses inside .nil) .nil
  have beyond := fewest.enclosed (maxDepth + 1)
  have deep : maxDepth < nesting (List.replicate (maxDepth + 1) "(" ++ expr.words 1 ++
      List.replicate (maxDepth + 1) ")") := by
    rw [beyond.nesting_eq]
    omega
  refine ⟨formed, unsigned, by decide, shown, ?_, ?_, _, deep, ?_⟩
  · exact ((all _ _ fewest).2 _ (Token.laidOut_intercalate _)).1 nests
  · exact ((all _ _ writes).2 _ laidOut).1 (by decide)
  · exact ((all _ _ beyond).2 _ (Token.laidOut_intercalate _)).2 deep

end Infix

end ShaderDefs
