import ShaderDefs.Proofs.Text.Numeral
import ShaderDefs.Token.Scan

/-! Scanning texts that are written token by token. A text that is one token is scanned to that token
in front of anything that does not go on with it, so words between single blanks are scanned to one
token each. -/

set_option autoImplicit false

namespace ShaderDefs.Token

def Kind.ofText (text : String) : Kind := .ofFirst (text.toList.headD ' ')

def IsLexeme (text : String) : Prop :=
  ∃ first rest, text.toList = first :: rest ∧ isGap first = false ∧ isComment first = false ∧
    first ≠ '\n' ∧ ∀ character ∈ rest, (Kind.ofFirst first).goesOn character

theorem isNameStart_eq_false_of_isDigit {character : Char} (digit : character.isDigit) :
    isNameStart character = false := by
  have := Text.toNat_of_isDigit digit
  rw [Bool.eq_false_iff]
  intro start
  rcases Bool.or_eq_true_iff.1 start with letter | same
  · have := Text.toNat_of_isAlpha letter
    omega
  · rw [of_decide_eq_true same] at this
    simp at this

theorem ofFirst_of_isNameStart {first : Char} (start : isNameStart first) :
    Kind.ofFirst first = .identifier := by
  simp [Kind.ofFirst, start]

theorem ofFirst_of_isDigit {first : Char} (digit : first.isDigit) :
    Kind.ofFirst first = .integer := by
  simp [Kind.ofFirst, isNameStart_eq_false_of_isDigit digit, digit]

theorem isLexeme_of_toNat {text : String} {first : Char} {rest : List Char}
    (same : text.toList = first :: rest) (high : 48 ≤ first.toNat)
    (others : ∀ character ∈ rest, (Kind.ofFirst first).goesOn character) : IsLexeme text := by
  -- Gaps, number signs and line feeds stand before the digits in the order of characters.
  have other : ∀ {mark : Char}, mark.toNat < 48 → first ≠ mark := by
    rintro mark low rfl
    omega
  refine ⟨first, rest, same, ?_, ?_, other (by decide), others⟩
  · simp only [isGap, Bool.or_eq_false_iff, decide_eq_false_iff_not]
    exact ⟨⟨other (by decide), other (by decide)⟩, other (by decide)⟩
  · exact decide_eq_false (other (by decide))

section Known

variable {text : String}

theorem isLexeme_of_isName (named : Text.IsName text) :
    IsLexeme text ∧ Kind.ofText text = .identifier := by
  obtain ⟨first, rest, same, starts, others⟩ := named
  have start : isNameStart first := by simpa [isNameStart] using starts
  have kind := ofFirst_of_isNameStart start
  have high : 48 ≤ first.toNat := by
    rcases starts with letter | rfl
    · have := Text.toNat_of_isAlpha letter
      omega
    · decide
  refine ⟨isLexeme_of_toNat same high ?_, by rw [Kind.ofText, same]; exact kind⟩
  intro character member
  rw [kind]
  simpa [Kind.goesOn, isNamePart] using others character member

theorem isLexeme_of_isDigits (decimal : Text.IsDigits text.toList) :
    IsLexeme text ∧ Kind.ofText text = .integer := by
  obtain ⟨some, digits⟩ := decimal
  obtain ⟨first, rest, same⟩ := List.exists_cons_of_ne_nil some
  rw [same] at digits
  have digit := digits first List.mem_cons_self
  have kind := ofFirst_of_isDigit digit
  refine ⟨isLexeme_of_toNat same (Text.toNat_of_isDigit digit).1 ?_, by rw [Kind.ofText, same]; exact kind⟩
  intro character member
  rw [kind]
  exact digits character (List.mem_cons_of_mem _ member)

theorem isLexeme_operator (operator : Operator) :
    IsLexeme operator.symbol.toString ∧ Kind.ofText operator.symbol.toString = .operator operator := by
  cases operator <;> exact ⟨⟨_, [], rfl, by decide, by decide, by decide, nofun⟩, rfl⟩

theorem isLexeme_opening : IsLexeme "(" ∧ Kind.ofText "(" = .opening :=
  ⟨⟨'(', [], rfl, by decide, by decide, by decide, nofun⟩, rfl⟩

theorem isLexeme_closing : IsLexeme ")" ∧ Kind.ofText ")" = .closing :=
  ⟨⟨')', [], rfl, by decide, by decide, by decide, nofun⟩, rfl⟩

end Known

theorem scanLine_lexeme {text : String} (lexeme : IsLexeme text) (line column : Nat)
    {rest : List Char}
    (stops : ∀ character ∈ rest.head?, (Kind.ofText text).goesOn character = false) :
    scanLine line column (text.toList ++ rest) =
      ⟨Kind.ofText text, text, .ofNat line column⟩ :: scanLine line (column + text.length) rest := by
  obtain ⟨first, others, same, noGap, noComment, _, goesOn⟩ := lexeme
  have kind : Kind.ofText text = Kind.ofFirst first := by rw [Kind.ofText, same]; rfl
  rw [kind] at stops ⊢
  rw [same, List.cons_append, scanLine, if_neg (by simp [noGap]), if_neg (by simp [noComment])]
  simp only [Text.takeWhile_eq_of_stops goesOn stops, Text.dropWhile_eq_of_stops goesOn stops]
  have length : column + text.length = column + 1 + others.length := by
    rw [← String.length_toList, same, List.length_cons, Nat.add_assoc, Nat.add_comm 1]
  rw [length, ← same, String.ofList_toList]

theorem IsLexeme.ne_empty {text : String} (lexeme : IsLexeme text) : text ≠ "" := by
  rintro rfl
  obtain ⟨first, rest, same, _⟩ := lexeme
  cases same

theorem isLexeme_of_mem_scanLine {line column : Nat} {characters : List Char} {token : Token}
    (oneLine : '\n' ∉ characters) (member : token ∈ scanLine line column characters) :
    IsLexeme token.text ∧ Kind.ofText token.text = token.kind := by
  fun_induction scanLine line column characters with
  | case1 => cases member
  | case2 _ _ _ _ ih => exact ih (fun feed => oneLine (List.mem_cons_of_mem _ feed)) member
  | case3 => cases member
  | case4 column first rest noGap noComment kind more ih =>
    rcases List.mem_cons.1 member with rfl | member
    · have same : (String.ofList (first :: more)).toList = first :: more := String.toList_ofList
      refine ⟨⟨first, more, same, ?_, ?_, ?_, ?_⟩, by rw [Kind.ofText, same]; rfl⟩
      · simpa using noGap
      · simpa using noComment
      · rintro rfl
        exact oneLine List.mem_cons_self
      · exact fun character inside => List.mem_takeWhile_imp inside
    · refine ih (fun feed => oneLine (List.mem_cons_of_mem _ ?_)) member
      exact (List.dropWhile_sublist _).mem feed

theorem goesOn_eq_false_of_isGap {character : Char} (gap : isGap character) (kind : Kind) :
    kind.goesOn character = false := by
  simp only [isGap, Bool.or_eq_true, decide_eq_true_eq] at gap
  rcases gap with (rfl | rfl) | rfl <;> cases kind <;> rfl

theorem scanLine_nil (line column : Nat) : scanLine line column [] = [] := by
  rw [scanLine]

theorem scanLine_gap {gap : List Char} (blank : ∀ character ∈ gap, isGap character)
    (line column : Nat) (rest : List Char) :
    scanLine line column (gap ++ rest) = scanLine line (column + gap.length) rest := by
  induction gap generalizing column with
  | nil => rfl
  | cons first gap ih =>
    obtain ⟨isGap, others⟩ := List.forall_mem_cons.1 blank
    rw [List.cons_append, scanLine, if_pos isGap, ih others, List.length_cons, Nat.add_right_comm,
      Nat.add_assoc]

theorem exists_scanLine_words {words : List String} (lexemes : ∀ word ∈ words, IsLexeme word)
    (line column : Nat) :
    ∃ tokens : List Token,
      tokens.map (fun token => (token.kind, token.text)) =
          words.map (fun word => (Kind.ofText word, word)) ∧
        ∀ rest, scanLine line column (words.flatMap (fun word => word.toList ++ [' ']) ++ rest) =
          tokens ++ scanLine line
            (column + (words.flatMap fun word => word.toList ++ [' ']).length) rest := by
  -- The tokens may not depend on what follows, so that is the last to be introduced.
  induction words generalizing column with
  | nil => exact ⟨[], rfl, fun rest => rfl⟩
  | cons word words ih =>
    obtain ⟨lexeme, others⟩ := List.forall_mem_cons.1 lexemes
    obtain ⟨tokens, each, goesOn⟩ := ih others (column + word.length + 1)
    refine ⟨⟨Kind.ofText word, word, .ofNat line column⟩ :: tokens, by rw [List.map_cons, each]; rfl,
      fun rest => ?_⟩
    have blank : ∀ character ∈ [' '], isGap character := List.forall_mem_singleton.2 rfl
    rw [List.flatMap_cons, List.append_assoc, List.append_assoc,
      scanLine_lexeme lexeme line column fun character head => ?_, scanLine_gap blank,
      List.length_singleton, goesOn, List.cons_append]
    · simp only [List.length_append, String.length_toList, List.length_singleton, Nat.add_assoc]
    · cases head
      exact goesOn_eq_false_of_isGap (by decide) _

/-- The characters are the words in their order with any gaps before, between and after them. A word may
follow directly where the word in front does not go on with it. -/
inductive LaidOut : List String → List Char → Prop where
  | nil {gap : List Char} (blank : ∀ character ∈ gap, isGap character) : LaidOut [] gap
  | cons {word : String} {words : List String} {gap rest : List Char}
      (blank : ∀ character ∈ gap, isGap character)
      (stops : ∀ character ∈ rest.head?, (Kind.ofText word).goesOn character = false)
      (more : LaidOut words rest) : LaidOut (word :: words) (gap ++ (word.toList ++ rest))

section LaidOut

variable {words : List String} {characters : List Char}

/-- Every word is scanned to a token of its own. -/
theorem LaidOut.scanLine_eq (laidOut : LaidOut words characters)
    (lexemes : ∀ word ∈ words, IsLexeme word) (line column : Nat) :
    (scanLine line column characters).map (fun token => (token.kind, token.text)) =
      words.map fun word => (Kind.ofText word, word) := by
  induction laidOut generalizing column with
  | @nil gap blank =>
    rw [← List.append_nil gap, scanLine_gap blank, scanLine_nil, List.map_nil, List.map_nil]
  | cons blank stops _ ih =>
    obtain ⟨lexeme, others⟩ := List.forall_mem_cons.1 lexemes
    rw [scanLine_gap blank, scanLine_lexeme lexeme line _ stops, List.map_cons, ih others]
    rfl

theorem ne_of_goesOn {kind : Kind} {character : Char} (goesOn : kind.goesOn character) :
    character ≠ '\n' := by
  rintro rfl
  cases kind <;> cases goesOn

theorem IsLexeme.notMem {word : String} (lexeme : IsLexeme word) : '\n' ∉ word.toList := by
  obtain ⟨first, rest, same, _, _, noFeed, goesOn⟩ := lexeme
  rw [same, List.mem_cons]
  rintro (feed | feed)
  · exact noFeed feed.symm
  · exact ne_of_goesOn (goesOn _ feed) rfl

theorem LaidOut.notMem (laidOut : LaidOut words characters)
    (lexemes : ∀ word ∈ words, IsLexeme word) : '\n' ∉ characters := by
  have inGap : ∀ {gap : List Char}, (∀ character ∈ gap, isGap character) → '\n' ∉ gap :=
    fun blank feed => absurd (blank _ feed) (by decide)
  induction laidOut with
  | nil blank => exact inGap blank
  | cons blank _ _ ih =>
    obtain ⟨lexeme, others⟩ := List.forall_mem_cons.1 lexemes
    rw [List.mem_append, List.mem_append, not_or, not_or]
    exact ⟨inGap blank, lexeme.notMem, ih others⟩

theorem LaidOut.gap_cons (laidOut : LaidOut words characters) {character : Char}
    (gap : isGap character) : LaidOut words (character :: characters) := by
  cases laidOut with
  | nil blank => exact .nil (List.forall_mem_cons.2 ⟨gap, blank⟩)
  | cons blank stops more => exact .cons (List.forall_mem_cons.2 ⟨gap, blank⟩) stops more

theorem laidOut_singleton (word : String) : LaidOut [word] word.toList := by
  have none : ∀ character ∈ ([] : List Char), isGap character := nofun
  have alone : LaidOut [word] ([] ++ (word.toList ++ [])) := .cons none nofun (.nil none)
  rwa [List.nil_append, List.append_nil] at alone

theorem LaidOut.word_append {next : Char} {rest : List Char} (laidOut : LaidOut words (next :: rest))
    {word : String} (stops : (Kind.ofText word).goesOn next = false) :
    LaidOut (word :: words) (word.toList ++ next :: rest) := by
  have none : ∀ character ∈ ([] : List Char), isGap character := nofun
  exact .cons none (by simpa using stops) laidOut

theorem laidOut_intercalate (words : List String) :
    LaidOut words (" ".intercalate words).toList := by
  induction words with
  | nil =>
    rw [String.intercalate_nil, String.toList_empty]
    exact .nil nofun
  | cons word words ih =>
    cases words with
    | nil =>
      rw [String.intercalate_singleton]
      exact laidOut_singleton word
    | cons next words =>
      have blank : " ".toList = [' '] := rfl
      rw [String.intercalate_cons_cons, String.toList_append, String.toList_append, blank,
        List.append_assoc]
      exact (ih.gap_cons (by decide)).word_append (goesOn_eq_false_of_isGap (by decide) _)

end LaidOut

section Intercalate

variable {words : List String} (lexemes : ∀ word ∈ words, IsLexeme word)
include lexemes

theorem scanLine_intercalate (line column : Nat) :
    (scanLine line column (" ".intercalate words).toList).map (fun token => (token.kind, token.text)) =
      words.map fun word => (Kind.ofText word, word) :=
  (laidOut_intercalate words).scanLine_eq lexemes line column

theorem notMem_intercalate : '\n' ∉ (" ".intercalate words).toList :=
  (laidOut_intercalate words).notMem lexemes

end Intercalate

theorem ofText_eq_closeText_ofLine {text : String} (oneLine : '\n' ∉ text.toList) :
    ofText text = closeText [text.toList] (ofLine 1 text.toList) := by
  have lines : Text.lines text = [text.toList] := List.splitOn_eq_singleton oneLine
  simp [ofText, lines]

theorem ofText_of_notMem {text : String} (oneLine : '\n' ∉ text.toList)
    (some : scanLine 1 1 text.toList ≠ []) :
    ofText text = scanLine 1 1 text.toList ++
      [⟨.lineEnd, "", .ofNat 1 (text.length + 1)⟩, ⟨.inputEnd, "", .ofNat 1 (text.length + 1)⟩] := by
  obtain ⟨token, tokens, same⟩ := List.exists_cons_of_ne_nil some
  rw [ofText_eq_closeText_ofLine oneLine, ofLine, same]
  simp [closeLine, closeText, String.length_toList]

end ShaderDefs.Token
