import ShaderDefs.Proofs.Definition.Correspondence
import ShaderDefs.Proofs.Definition.Progress
import ShaderDefs.Proofs.Infix.Expectation
import ShaderDefs.Proofs.Infix.Writing
import ShaderDefs.Proofs.Token.Placement

/-! Expressions behind a heading. A text is read to the same tree alone and as the body of a definition
on one line, or it is refused for the same reason, as far to the right as the heading is long. -/

set_option autoImplicit false

namespace ShaderDefs

open Token (Respects)

/-- The place is on the only line of the text or just past it, and the other is further right. -/
def Position.Shifts (text : String) (count : Nat) (position place : Position) : Prop :=
  ∃ offset ≤ text.length, position = .ofNat 1 (offset + 1) ∧ place = .ofNat 1 (offset + 1 + count)

namespace Fault

/-- The second fault says on a line what the first says of a text that is an expression as a whole. Only
the end that had to come is that of the line and not that of the input. -/
inductive SaysOnLine : Fault → Fault → Prop where
  | unknownCharacter (position place : Position) (character : Char) :
      SaysOnLine (.unknownCharacter position character) (.unknownCharacter place character)
  | unexpected (position place : Position) {expected other : Expectation} (found : String)
      (words : other.phrase =
        if expected.phrase = "end of input" then "end of line" else expected.phrase) :
      SaysOnLine (.unexpected position expected found) (.unexpected place other found)

theorem SaysOnLine.lineEnd (position place : Position) (found : String) :
    SaysOnLine (.unexpected position (.token .inputEnd) found)
      (.unexpected place (.token .lineEnd) found) :=
  .unexpected position place found (if_pos rfl).symm

theorem phrase_of_inExpression {position : Position} {expected : Expectation} {found : String}
    (inner : (Fault.unexpected position expected found).InExpression) :
    expected.phrase =
      if expected.phrase = "end of input" then "end of line" else expected.phrase := by
  have other : expected.phrase ≠ "end of input" := by
    unfold InExpression at inner
    simp only [List.mem_cons, List.not_mem_nil, or_false] at inner
    rcases inner with rfl | rfl | rfl | rfl <;> decide +kernel
  rw [if_neg other]

variable {pairs : Token → Token → Prop} {first second : Fault}

theorem Alike.saysOnLine (respects : Respects pairs) (alike : Alike pairs first second)
    (inner : first.InExpression) : SaysOnLine first second := by
  cases alike with
  | @unknownCharacter token twin character pair kind => exact .unknownCharacter _ _ _
  | @unexpected token twin pair expected =>
    rw [← (respects pair).2]
    exact .unexpected _ _ _ (phrase_of_inExpression inner)

def At (pairs : Token → Token → Prop) (position place : Position) : Prop :=
  ∃ token twin, pairs token twin ∧ token.position = position ∧ twin.position = place

theorem Alike.at (alike : Alike pairs first second) : At pairs first.position second.position := by
  cases alike with
  | unknownCharacter pair => exact ⟨_, _, pair, rfl, rfl⟩
  | unexpected pair => exact ⟨_, _, pair, rfl, rfl⟩

end Fault

namespace Definition

variable {name : String} {parameters : List String}

def heading (name : String) (parameters : List String) : String :=
  " ".intercalate (name :: parameters) ++ " = "

inductive Heads : String → List String → List Token → Prop where
  | heading {name equals : Token} {parameters : List Token} (named : name.kind = .identifier)
      (parametersNamed : ∀ parameter ∈ parameters, parameter.kind = .identifier)
      (equates : equals.kind = .equals) :
      Heads name.text (parameters.map (·.text)) (name :: (parameters ++ [equals]))

/-- The line defines the name with the parameters, and its body is the expression. Or else both are
refused, with faults that say the same at places that go together. -/
inductive Mirrors (name : String) (parameters : List String) (places : Position → Position → Prop) :
    Except Fault Expr → Except Fault Definition → Prop where
  | ok (definition : Definition) (named : definition.name = name)
      (parametersNamed : definition.parameters = parameters) :
      Mirrors name parameters places (.ok definition.body) (.ok definition)
  | error {alone inLine : Fault} (same : alone.SaysOnLine inLine)
      (place : places alone.position inLine.position) :
      Mirrors name parameters places (.error alone) (.error inLine)

theorem Mirrors.imp {places others : Position → Position → Prop} {alone : Except Fault Expr}
    {inLine : Except Fault Definition} (mirrors : Mirrors name parameters places alone inLine)
    (within : ∀ position place, places position place → others position place) :
    Mirrors name parameters others alone inLine := by
  cases mirrors with
  | ok definition named parametersNamed => exact .ok definition named parametersNamed
  | error same place => exact .error same (within _ _ place)

section Tokens

variable {pairs : Token → Token → Prop} {finish last : Position} {rest others : List Token}

/-- Where nothing but ends comes after an end, both kinds of end are found, or both are missing at
corresponding tokens. -/
theorem ends_or_refuses (respects : Respects pairs) (alike : Token.Alike pairs rest others)
    (closed : rest.Pairwise fun token next => token.kind.isEnd → next.kind.isEnd) :
    let left := rest.dropWhile fun token => token.kind = .lineEnd
    (Infix.expectEnd finish .inputEnd left = .ok () ∧
        Infix.expectEnd last .lineEnd others = .ok ()) ∨
      ∃ alone inLine, Infix.expectEnd finish .inputEnd left = .error alone ∧
        Infix.expectEnd last .lineEnd others = .error inLine ∧ alone.SaysOnLine inLine ∧
        Fault.At pairs alone.position inLine.position := by
  intro left
  cases rest with
  | nil =>
    cases alike
    exact .inl ⟨rfl, rfl⟩
  | cons token rest =>
    obtain ⟨twin, others, rfl, pair, _⟩ := alike.exists_cons
    obtain ⟨kinds, texts⟩ := respects pair
    by_cases ends : token.kind.isEnd
    · have behind := (List.pairwise_cons.1 closed).1
      have all : ∀ other ∈ token :: rest, other.kind.isEnd :=
        List.forall_mem_cons.2 ⟨ends, fun other member => behind other member ends⟩
      refine .inl ⟨Infix.expectEnd_of_isEnd fun other head => ?_, ?_⟩
      · exact all other ((List.dropWhile_sublist _).mem (List.mem_of_head? head))
      · exact if_pos (kinds ▸ ends)
    · have noLineEnd : decide (token.kind = .lineEnd) = false := by
        rw [decide_eq_false_iff_not]
        intro kind
        exact ends ((Token.Kind.isEnd_iff _).2 (.inl kind))
      have kept : left = token :: rest := List.dropWhile_cons_of_neg (by simp [noLineEnd])
      rw [kept]
      refine .inr ⟨_, _, if_neg ends, if_neg (kinds ▸ ends), ?_, token, twin, pair, rfl, rfl⟩
      rw [Infix.stop, Infix.stop, texts]
      exact .lineEnd _ _ _

def closing (position : Position) : List Token :=
  [⟨.lineEnd, "", position⟩, ⟨.inputEnd, "", position⟩]

variable {header body : List Token} {position : Position} {close : Token}

theorem pairwise_closing (inner : ∀ token ∈ body, token.kind.isEnd = false) :
    (body ++ closing position).Pairwise fun token next => token.kind.isEnd → next.kind.isEnd := by
  rw [List.pairwise_append]
  refine ⟨?_, by simp [closing, Token.Kind.isEnd], fun token member _ _ ends => ?_⟩
  · refine List.pairwise_of_forall_mem_list fun token member next _ ends => ?_
    rw [inner token member] at ends
    cases ends
  · rw [inner token member] at ends
    cases ends

theorem Heads.findSome?_eq_none (heads : Heads name parameters header) :
    header.findSome? Fault.ofToken? = none := by
  obtain ⟨named, parametersNamed, equates⟩ := heads
  rw [List.findSome?_eq_none_iff, List.forall_mem_cons, List.forall_mem_append]
  refine ⟨by simp [Fault.ofToken?, named], fun token member => ?_, by simp [Fault.ofToken?, equates]⟩
  simp [Fault.ofToken?, parametersNamed token member]

theorem Heads.rel_findSome? (heads : Heads name parameters header) (respects : Respects pairs)
    (each : List.Forall₂ pairs body others) (pair : pairs ⟨.lineEnd, "", position⟩ close) :
    Option.Rel (Fault.Alike pairs) ((body ++ closing position).findSome? Fault.ofToken?)
      ((header ++ (others ++ [close])).findSome? Fault.ofToken?) := by
  have kind : close.kind = .lineEnd := (respects pair).1.symm
  have alone : (closing position).findSome? Fault.ofToken? = none := rfl
  have inLine : [close].findSome? Fault.ofToken? = none := by simp [Fault.ofToken?, kind]
  rw [List.findSome?_append, List.findSome?_append, heads.findSome?_eq_none, List.findSome?_append,
    alone, inLine, Option.none_or, Option.or_none, Option.or_none]
  exact rel_findSome?_ofToken? respects each

theorem endsAlike_closing (pair : pairs ⟨.lineEnd, "", position⟩ close) (body front : List Token) :
    Infix.EndsAlike pairs (Infix.finishOf (body ++ closing position))
      (Infix.finishOf (front ++ [close])) := by
  have place : Infix.finishOf (body ++ closing position) =
      Infix.finishOf (body ++ [⟨.lineEnd, "", position⟩]) := by simp [Infix.finishOf, closing]
  rw [place]
  exact endsAlike_finishOf pair rfl body front

/-- Corresponding tokens are read alike alone and behind a heading. -/
theorem Heads.mirrors (heads : Heads name parameters header) (respects : Respects pairs)
    (each : List.Forall₂ pairs body others) (inner : ∀ token ∈ body, token.kind.isEnd = false)
    (pair : pairs ⟨.lineEnd, "", position⟩ close) :
    Mirrors name parameters (Fault.At pairs) (Infix.read (body ++ closing position))
      (readLine (header ++ (others ++ [close]))) := by
  have known := heads.rel_findSome? respects each pair
  have ends : Infix.EndsAlike pairs (Infix.finishOf (body ++ closing position))
      (Infix.finishOf (header ++ (others ++ [close]))) := by
    rw [← List.append_assoc]
    exact endsAlike_closing pair _ _
  have alike : Token.Alike pairs (body ++ closing position) (others ++ [close]) :=
    .forall₂_append each (.stop pair rfl)
  have closed := @pairwise_closing body position inner
  generalize body ++ closing position = tokens at known ends alike closed ⊢
  unfold Infix.read readLine
  generalize found : tokens.findSome? Fault.ofToken? = first at known ⊢
  generalize (header ++ (others ++ [close])).findSome? Fault.ofToken? = second at known ⊢
  cases known with
  | @some first second fault =>
    -- Both report the same foreign character and read nothing.
    exact .error (fault.saysOnLine respects (Fault.inExpression_of_findSome? found)) fault.at
  | none =>
  dsimp only
  generalize Infix.finishOf tokens = finish, Infix.finishOf (header ++ (others ++ [close])) = last
    at ends ⊢
  obtain ⟨named, parametersNamed, equates⟩ := heads
  rw [← Frontier.header_append, ofTokens_eq named parametersNamed equates]
  have agree := Infix.readersAlike_expression respects ends maxDepth alike
  have wants := Infix.wantsParts_expression finish maxDepth tokens
  have follows := Infix.follows_expression finish maxDepth 0 tokens
  generalize Infix.expression finish maxDepth tokens = alone at agree wants follows ⊢
  generalize Infix.expression last maxDepth (others ++ [close]) = inLine at agree ⊢
  cases agree with
  | error fault => exact .error (fault.saysOnLine respects (wants _ rfl)) fault.at
  | ok readings =>
  -- Only what is left behind the expression is judged by a kind of end of its own.
  cases follows with
  | ok shape =>
  rw [shape] at closed
  dsimp only
  rcases ends_or_refuses respects readings.rest (List.pairwise_append.1 closed).2.1 with
    ⟨first, second⟩ | ⟨fault, other, first, second, same, place⟩
  · rw [first, second, readings.value]
    exact .ok ⟨_, _, _, _, _⟩ rfl rfl
  · rw [first, second]
    exact .error same place

theorem Heads.mirrors_nil (heads : Heads name parameters header) (kind : close.kind = .lineEnd)
    (empty : close.text = "") {places : Position → Position → Prop}
    (place : places .start close.position) :
    Mirrors name parameters places (Infix.read []) (readLine (header ++ ([] ++ [close]))) := by
  have alone : Infix.read [] = .error (.unexpected .start .expression "") := by
    rw [Infix.read, List.findSome?_nil]
    dsimp only
    rw [Infix.expression_eq_error rfl]
    rfl
  have inLine : readLine (header ++ ([] ++ [close])) =
      .error (.unexpected close.position .expression "") := by
    have noAtom : Infix.startsAtom [close] = false := by
      simp [Infix.startsAtom, kind, Token.Kind.startsAtom]
    have known : [close].findSome? Fault.ofToken? = none := by simp [Fault.ofToken?, kind]
    rw [readLine, List.findSome?_append, heads.findSome?_eq_none, List.nil_append, known]
    obtain ⟨named, parametersNamed, equates⟩ := heads
    rw [Option.or_none, ← Frontier.header_append]
    dsimp only
    rw [ofTokens_eq named parametersNamed equates,
      Infix.expression_eq_error noAtom, Infix.stop, empty]
  rw [alone, inLine]
  exact .error (.unexpected _ _ _ (by decide +kernel)) place

end Tokens

theorem toList_heading (name : String) (parameters : List String) :
    (heading name parameters).toList =
      (name :: (parameters ++ ["="])).flatMap fun word => word.toList ++ [' '] := by
  have equals : " = ".toList = [' '] ++ ("=".toList ++ [' ']) := rfl
  have blank : " ".toList = [' '] := rfl
  have words : ∀ words word, (" ".intercalate (word :: words)).toList ++ [' '] =
      (word :: words).flatMap fun word => word.toList ++ [' '] := by
    -- The first word is general because the next one takes its place.
    intro words
    induction words with
    | nil =>
      intro word
      rw [String.intercalate_singleton, List.flatMap_singleton]
    | cons next words ih =>
      intro word
      rw [String.intercalate_cons_cons, String.toList_append, String.toList_append, List.append_assoc,
        ih, blank]
      rfl
  rw [heading, String.toList_append, equals, ← List.append_assoc, words, ← List.cons_append,
    List.flatMap_append, List.flatMap_singleton]

section Texts

variable (named : Text.IsName name) (parametersNamed : ∀ parameter ∈ parameters, Text.IsName parameter)
include named parametersNamed

theorem isLexeme_of_mem_heading :
    ∀ word ∈ name :: (parameters ++ ["="]), Token.IsLexeme word := by
  rw [List.forall_mem_cons, List.forall_mem_append]
  refine ⟨(Token.isLexeme_of_isName named).1, fun parameter member => ?_, ?_⟩
  · exact (Token.isLexeme_of_isName (parametersNamed parameter member)).1
  · rw [List.forall_mem_singleton]
    exact ⟨'=', [], rfl, by decide, by decide, by decide, nofun⟩

theorem notMem_heading : '\n' ∉ (heading name parameters).toList := by
  rw [toList_heading, List.mem_flatMap]
  rintro ⟨word, member, feed⟩
  rcases List.mem_append.1 feed with feed | feed
  · exact (isLexeme_of_mem_heading named parametersNamed word member).notMem feed
  · exact absurd feed (by decide)

theorem exists_heads : ∃ header, Heads name parameters header ∧ ∀ rest,
    Token.scanLine 1 1 ((heading name parameters).toList ++ rest) =
      header ++ Token.scanLine 1 (1 + (heading name parameters).length) rest := by
  obtain ⟨header, each, goesOn⟩ :=
    Token.exists_scanLine_words (isLexeme_of_mem_heading named parametersNamed) 1 1
  have transcribes : Infix.Transcribes header (name :: (parameters ++ ["="])) := each
  rw [← toList_heading, String.length_toList] at goesOn
  refine ⟨header, ?_, goesOn⟩
  obtain ⟨first, others, rfl, kind, rfl, further⟩ := transcribes.cons
  obtain ⟨tokens, last, rfl, inner, final⟩ := further.append
  obtain ⟨equals, none, rfl, equates, _, nothing⟩ := final.cons
  cases List.map_eq_nil_iff.1 nothing
  have identifiers : ∀ token ∈ tokens, token.kind = .identifier := by
    intro token member
    obtain ⟨word, inside, same⟩ := inner.kind_of_mem member
    rw [same, (Token.isLexeme_of_isName (parametersNamed word inside)).2]
  rw [← inner.texts]
  exact .heading (kind.trans (Token.isLexeme_of_isName named).2) identifiers equates

/-- The line has the tokens of the heading and then those of the text, as far to the right as the heading
is long. -/
theorem exists_ofLine_eq (text : String) : ∃ header, Heads name parameters header ∧
    Token.ofLine 1 (heading name parameters ++ text).toList = header ++
      ((Token.scanLine 1 1 text.toList).map (·.relocate (·.right (heading name parameters).length)) ++
        [⟨.lineEnd, "", (Position.ofNat 1 (text.length + 1)).right (heading name parameters).length⟩]) := by
  obtain ⟨header, heads, goesOn⟩ := exists_heads named parametersNamed
  have length : (heading name parameters ++ text).toList.length + 1 =
      text.length + 1 + (heading name parameters).length := by
    rw [String.length_toList, String.length_append]
    omega
  have scanned := goesOn text.toList
  rw [← String.toList_append, Token.scanLine_right] at scanned
  have some : header ≠ [] := by
    obtain ⟨⟩ := heads
    exact List.cons_ne_nil _ _
  have tokens : Token.scanLine 1 1 (heading name parameters ++ text).toList ≠ [] := by
    rw [scanned]
    exact List.append_ne_nil_of_left_ne_nil some _
  refine ⟨header, heads, ?_⟩
  rw [Token.ofLine_eq_append tokens, scanned, List.append_assoc, length, Position.right_ofNat]

end Texts

section Line

variable {text : String}

theorem readAll_ofText_of_notMem (oneLine : '\n' ∉ text.toList)
    (some : Token.ofLine 1 text.toList ≠ []) :
    readAll (Token.ofText text) = (readLine (Token.ofLine 1 text.toList)).map ([·]) := by
  have lines : Text.lines text = [text.toList] := List.splitOn_eq_singleton oneLine
  have statement : statements (Token.ofText text) = [Token.ofLine 1 text.toList] := by
    rw [statements_ofText, lines]
    simpa using some
  rw [readAll, statement, List.mapM_cons, List.mapM_nil]
  cases readLine (Token.ofLine 1 text.toList) <;> rfl

theorem mirrors_ofText (named : Text.IsName name)
    (parametersNamed : ∀ parameter ∈ parameters, Text.IsName parameter)
    (oneLine : '\n' ∉ text.toList) :
    Mirrors name parameters
      (fun position place => Token.ofText text ≠ [] →
        position.Shifts text (heading name parameters).length place)
      (Infix.read (Token.ofText text))
      (readLine (Token.ofLine 1 (heading name parameters ++ text).toList)) := by
  obtain ⟨header, heads, line⟩ := exists_ofLine_eq named parametersNamed text
  rw [line]
  generalize (heading name parameters).length = count
  by_cases none : Token.scanLine 1 1 text.toList = []
  · -- Without tokens an operand is missing at the start of the text and at the end of the line.
    have noTokens : Token.ofText text = [] := by
      rw [Token.ofText_eq_closeText_ofLine oneLine, Token.ofLine, none]
      rfl
    rw [noTokens, none]
    exact heads.mirrors_nil rfl rfl (absurd rfl ·)
  · rw [Token.ofText_of_notMem oneLine none]
    -- Only tokens of the line are paired, so a fault stands on the line or just past it.
    let pairs (token twin : Token) : Prop :=
      Token.MovesTo (·.right count) token twin ∧
        ∃ offset ≤ text.length, token.position = .ofNat 1 (offset + 1)
    have respects : Respects pairs := fun token twin pair => Token.respects_movesTo pair.1
    have each : List.Forall₂ pairs (Token.scanLine 1 1 text.toList)
        ((Token.scanLine 1 1 text.toList).map (·.relocate (·.right count))) := by
      rw [List.forall₂_map_right_iff, List.forall₂_same]
      intro token member
      obtain ⟨offset, low, place, _⟩ := Token.exists_occurs_of_mem_scanLine member
      rw [String.length_toList] at low
      exact ⟨rfl, offset, Nat.le_of_lt low, by rw [place, Nat.add_comm]⟩
    have close : pairs ⟨.lineEnd, "", .ofNat 1 (text.length + 1)⟩
        ⟨.lineEnd, "", (Position.ofNat 1 (text.length + 1)).right count⟩ :=
      ⟨rfl, text.length, Nat.le_refl _, rfl⟩
    refine (heads.mirrors respects each (fun token => Token.isEnd_of_mem_scanLine) close).imp ?_
    rintro _ _ ⟨token, _, ⟨rfl, offset, low, place⟩, rfl, rfl⟩ _
    refine ⟨offset, low, place, ?_⟩
    rw [← Position.right_ofNat, ← place]
    rfl

/-- A text of one line is an expression as a whole exactly if behind the heading it makes a line that
defines the name with the parameters to be that expression. Where it is refused, both faults say the
same, but for the end that had to come, and if the text has tokens, the fault on the line is further
right by the length of the heading. -/
theorem read_iff_readAll_heading (named : Text.IsName name)
    (parametersNamed : ∀ parameter ∈ parameters, Text.IsName parameter)
    (oneLine : '\n' ∉ text.toList) :
    (∀ expr, Infix.read (Token.ofText text) = .ok expr ↔ ∃ definition,
      readAll (Token.ofText (heading name parameters ++ text)) = .ok [definition] ∧
        definition.name = name ∧ definition.parameters = parameters ∧ definition.body = expr) ∧
    ∀ alone, Infix.read (Token.ofText text) = .error alone → ∃ inLine,
      readAll (Token.ofText (heading name parameters ++ text)) = .error inLine ∧
        alone.SaysOnLine inLine ∧
        (Token.ofText text ≠ [] → (heading name parameters ++ text).length < UInt32.size - 1 →
          inLine.position.line = alone.position.line ∧
            inLine.position.column.toNat =
              alone.position.column.toNat + (heading name parameters).length) := by
  have whole : '\n' ∉ (heading name parameters ++ text).toList := by
    rw [String.toList_append, List.mem_append]
    exact not_or.2 ⟨notMem_heading named parametersNamed, oneLine⟩
  have some : Token.ofLine 1 (heading name parameters ++ text).toList ≠ [] := by
    obtain ⟨header, _, line⟩ := exists_ofLine_eq named parametersNamed text
    rw [line]
    exact List.append_ne_nil_of_right_ne_nil _ (List.append_ne_nil_of_right_ne_nil _ nofun)
  have mirrors := mirrors_ofText named parametersNamed oneLine
  rw [readAll_ofText_of_notMem whole some]
  generalize Infix.read (Token.ofText text) = first at mirrors ⊢
  generalize readLine (Token.ofLine 1 (heading name parameters ++ text).toList) = second at mirrors ⊢
  cases mirrors with
  | ok definition sameName sameParameters =>
    refine ⟨fun expr => ⟨?_, ?_⟩, nofun⟩
    · rintro ⟨⟩
      exact ⟨definition, rfl, sameName, sameParameters, rfl⟩
    · rintro ⟨_, ⟨⟩, _, _, rfl⟩
      rfl
  | @error alone inLine same place =>
    refine ⟨fun expr => ⟨nofun, ?_⟩, ?_⟩
    · rintro ⟨_, made, _⟩
      cases made
    rintro _ ⟨⟩
    refine ⟨inLine, rfl, same, fun tokens short => ?_⟩
    obtain ⟨offset, low, left, right⟩ := place tokens
    rw [String.length_append] at short
    rw [left, right, Token.toNat_column_ofNat (by omega), Token.toNat_column_ofNat (by omega)]
    exact ⟨rfl, rfl⟩

/-- A comment stands behind the first text, and in the second a parenthesis is closed that was never
opened. -/
theorem read_iff_readAll_heading_of_two_parameters :
    let head := heading "f" ["x", "y"]
    let body : Expr := .application (.identifier "x") [.identifier "y"]
    head = "f x y = " ∧ Text.IsName "f" ∧ (∀ parameter ∈ ["x", "y"], Text.IsName parameter) ∧
      '\n' ∉ "x y # z".toList ∧ '\n' ∉ "x 1 )".toList ∧
      (∃ definition, readAll (Token.ofText (head ++ "x y # z")) = .ok [definition] ∧
        definition.name = "f" ∧ definition.parameters = ["x", "y"] ∧ definition.body = body) ∧
      Infix.read (Token.ofText "x 1 )") = .error (.unexpected ⟨1, 5⟩ (.token .inputEnd) ")") ∧
      ∃ inLine, readAll (Token.ofText (head ++ "x 1 )")) = .error inLine ∧
        (Fault.unexpected ⟨1, 5⟩ (.token .inputEnd) ")").SaysOnLine inLine ∧
        inLine.position.line = 1 ∧ inLine.position.column.toNat = 5 + 8 := by
  intro head body
  have named : Text.IsName "f" := ⟨'f', [], rfl, .inl rfl, nofun⟩
  have parametersNamed : ∀ parameter ∈ ["x", "y"], Text.IsName parameter := by
    rw [List.forall_mem_cons, List.forall_mem_singleton]
    exact ⟨⟨'x', [], rfl, .inl rfl, nofun⟩, ⟨'y', [], rfl, .inl rfl, nofun⟩⟩
  have oneLine : '\n' ∉ "x y # z".toList := by decide +kernel
  have alsoOneLine : '\n' ∉ "x 1 )".toList := by decide +kernel
  have readBody : Infix.read (Token.ofText "x y # z") = .ok body := by decide +kernel
  have refused : Infix.read (Token.ofText "x 1 )") =
      .error (.unexpected ⟨1, 5⟩ (.token .inputEnd) ")") := by decide +kernel
  have defined := ((read_iff_readAll_heading named parametersNamed oneLine).1 body).1 readBody
  obtain ⟨inLine, made, same, place⟩ :=
    (read_iff_readAll_heading named parametersNamed alsoOneLine).2 _ refused
  obtain ⟨line, column⟩ := place (by decide +kernel) (by decide +kernel)
  have length : (heading "f" ["x", "y"]).length = 8 := by decide +kernel
  rw [length] at column
  exact ⟨by decide +kernel, named, parametersNamed, oneLine, alsoOneLine, defined, refused, inLine, made,
    same, line, column⟩

end Line

end Definition

end ShaderDefs
