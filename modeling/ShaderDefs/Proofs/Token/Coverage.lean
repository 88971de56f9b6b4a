import Mathlib.Data.List.Basic
import ShaderDefs.Proofs.Text.Lines
import ShaderDefs.Proofs.Token.Placement

/-! What scanning makes of each character. No two tokens of a text share a character, and together they
have every character that is neither a gap nor in a comment. -/

set_option autoImplicit false

namespace ShaderDefs.Token

def Covers (token : Token) (column : Nat) : Prop :=
  token.position.column.toNat ≤ column ∧
    column < token.position.column.toNat + token.text.length

variable {characters rest : List Char} {offset : Nat} {token : Token}

theorem Occurs.ne_empty (occurs : Occurs characters offset token) : token.text ≠ "" := by
  intro empty
  by_cases name : token.kind = .identifier
  · obtain ⟨first, others, same, _⟩ := (occurs.name name).1
    rw [empty] at same
    cases same
  by_cases integer : token.kind = .integer
  · have some := (occurs.integer integer).1.1
    rw [empty] at some
    exact some rfl
  · obtain ⟨character, same, _⟩ := occurs.mark name integer
    rw [empty] at same
    have lengths := congrArg String.length same
    simp at lengths

theorem covers_iff {line column : Nat} (place : token.position = .ofNat line column)
    (fits : column < UInt32.size) (place' : Nat) :
    token.Covers place' ↔ column ≤ place' ∧ place' < column + token.text.length := by
  rw [Covers, place, toNat_column_ofNat fits]

theorem goesOn_comment (kind : Kind) : kind.goesOn '#' = false := by
  cases kind <;> rfl

/-- Where scanning goes on behind a token, the comment is still to come. -/
theorem takeWhile_eq_append {first : Char} (noComment : isComment first = false) (kind : Kind)
    (rest : List Char) :
    (first :: rest).takeWhile (· ≠ '#') =
      (first :: rest.takeWhile kind.goesOn) ++
        (rest.dropWhile kind.goesOn).takeWhile (· ≠ '#') := by
  have inside : ∀ character ∈ first :: rest.takeWhile kind.goesOn,
      decide (character ≠ '#') = true := by
    intro character member
    rw [decide_eq_true_iff]
    rintro rfl
    rcases List.mem_cons.1 member with rfl | more
    · simp [isComment] at noComment
    · have goesOn := List.mem_takeWhile_imp more
      rw [goesOn_comment] at goesOn
      cases goesOn
  rw [← List.takeWhile_append_of_pos inside, List.cons_append, List.takeWhile_append_dropWhile]

/-- The characters that scanning takes into tokens are those before a comment that are no gaps. -/
theorem exists_covers_iff {line column : Nat} (fits : column + characters.length < UInt32.size)
    (offset : Nat) :
    (∃ token ∈ scanLine line column characters, token.Covers (column + offset)) ↔
      ∃ character, (characters.takeWhile (· ≠ '#'))[offset]? = some character ∧
        isGap character = false := by
  fun_induction scanLine line column characters generalizing offset with
  | case1 => simp
  | case2 column first rest gap ih =>
    rw [List.length_cons] at fits
    rw [takeWhile_cons_of_isGap gap]
    cases offset with
    | zero =>
      refine iff_of_false ?_ ?_
      · rintro ⟨token, member, low, _⟩
        obtain ⟨offset, less, place, _⟩ := exists_occurs_of_mem_scanLine member
        rw [place, toNat_column_ofNat (by omega)] at low
        omega
      · rintro ⟨_, ⟨⟩, noGap⟩
        rw [gap] at noGap
        cases noGap
    | succ offset =>
      rw [List.getElem?_cons_succ, ← ih (by omega), Nat.add_right_comm, Nat.add_assoc column]
  | case3 column first rest noGap comment => simp [of_decide_eq_true comment]
  | case4 column first rest noGap noComment kind more ih =>
    have split : more.length + _ = rest.length := length_span kind.goesOn rest
    rw [List.length_cons] at fits
    have head : ∀ place, Covers ⟨kind, .ofList (first :: more), .ofNat line column⟩ place ↔
        column ≤ place ∧ place < column + (first :: more).length := by
      intro place
      rw [covers_iff rfl (by omega), String.length_ofList]
    rw [takeWhile_eq_append (Bool.eq_false_iff.2 noComment) kind]
    by_cases inside : offset < (first :: more).length
    · refine iff_of_true ⟨_, List.mem_cons_self, (head _).2 (by omega)⟩
        ⟨(first :: more)[offset], ?_, ?_⟩
      · rw [List.getElem?_append_left inside, List.getElem?_eq_getElem inside]
      · rcases List.mem_cons.1 (List.getElem_mem inside) with same | member
        · rw [same]
          exact Bool.eq_false_iff.2 noGap
        · have goesOn := List.mem_takeWhile_imp member
          rw [Bool.eq_false_iff]
          intro gap
          rw [goesOn_eq_false_of_isGap gap] at goesOn
          cases goesOn
    · obtain ⟨further, rfl⟩ := Nat.exists_eq_add_of_le (Nat.le_of_not_lt inside)
      rw [List.getElem?_append_right (Nat.le_add_right _ _), Nat.add_sub_cancel_left,
        ← ih (by omega)]
      have same : column + 1 + more.length + further =
          column + ((first :: more).length + further) := by
        rw [List.length_cons]
        omega
      rw [same]
      constructor
      · rintro ⟨token, member, covers⟩
        rcases List.mem_cons.1 member with rfl | member
        · have := (head _).1 covers
          omega
        · exact ⟨token, member, covers⟩
      · rintro ⟨token, member, covers⟩
        exact ⟨token, List.mem_cons_of_mem _ member, covers⟩

theorem filter_ofText (source : String) :
    (ofText source).filter (!·.kind.isEnd) =
      ((Text.lines source).zipIdx 1).flatMap fun numbered => scanLine numbered.2 1 numbered.1 := by
  have line : ∀ numbered : List Char × Nat,
      (ofLine numbered.2 numbered.1).filter (!·.kind.isEnd) = scanLine numbered.2 1 numbered.1 := by
    intro numbered
    have inner : (scanLine numbered.2 1 numbered.1).filter (!·.kind.isEnd) =
        scanLine numbered.2 1 numbered.1 := by
      refine List.filter_eq_self.2 fun token member => ?_
      rw [isEnd_of_mem_scanLine member]
      rfl
    unfold ofLine
    generalize scanLine numbered.2 1 numbered.1 = tokens at inner ⊢
    cases tokens with
    | nil => rfl
    | cons token rest =>
      simp only [closeLine, List.filter_append, inner]
      exact List.append_nil _
  have text : ∀ tokens, (closeText (Text.lines source) tokens).filter (!·.kind.isEnd) =
      tokens.filter (!·.kind.isEnd) := by
    intro tokens
    cases tokens with
    | nil => rfl
    | cons token rest =>
      rw [closeText, List.filter_append]
      · exact List.append_nil _
      · exact List.cons_ne_nil _ _
  rw [ofText, text, List.filter_flatMap]
  exact List.flatMap_congr fun numbered _ => line numbered

/-- The character is no gap, begins no comment and is part of no token of the language. -/
def IsForeign (character : Char) : Prop :=
  isNamePart character = false ∧
    character ∉ [' ', '\t', '\r', '#', '=', '(', ')', '+', '-', '*', '/']

theorem isNamePart_of_goesOn {kind : Kind} {character : Char} (goesOn : kind.goesOn character) :
    isNamePart character := by
  cases kind with
  | identifier => exact goesOn
  | integer => exact isNamePart_iff.2 (.inr goesOn)
  | _ => cases goesOn

theorem Kind.exists_ofMark_eq_unknown_iff {mark : Char} :
    (∃ character, ofMark mark = .unknown character) ↔
      mark ∉ ['=', '(', ')', '+', '-', '*', '/'] := by
  unfold ofMark
  split
  all_goals simp_all

theorem isForeign_iff {first : Char} (noGap : isGap first = false)
    (noComment : isComment first = false) :
    IsForeign first ↔ ∃ character, Kind.ofFirst first = .unknown character := by
  by_cases part : isNamePart first
  · refine iff_of_false (fun foreign => ?_) ?_
    · rw [foreign.1] at part
      cases part
    · rintro ⟨character, unknown⟩
      rcases isNamePart_iff.1 part with start | digit
      · rw [ofFirst_of_isNameStart start] at unknown
        cases unknown
      · rw [ofFirst_of_isDigit digit] at unknown
        cases unknown
  · rw [Bool.not_eq_true] at part
    rw [Kind.ofFirst_eq_ofMark part, Kind.exists_ofMark_eq_unknown_iff, IsForeign]
    have separates : first ∉ [' ', '\t', '\r', '#'] := by
      simp_all [isGap, isComment]
    simp_all

theorem not_isForeign_of_isGap {character : Char} (gap : isGap character) :
    ¬IsForeign character := by
  intro foreign
  have member := isGap_iff.1 gap
  apply foreign.2
  simp only [List.mem_cons] at member ⊢
  tauto

theorem exists_unknown_scanLine_iff (line column : Nat) (characters : List Char) :
    (∃ token ∈ scanLine line column characters, ∃ character, token.kind = .unknown character) ↔
      ∃ character ∈ characters.takeWhile (· ≠ '#'), IsForeign character := by
  fun_induction scanLine line column characters with
  | case1 => simp
  | case2 column first rest gap ih =>
    rw [takeWhile_cons_of_isGap gap, ih, List.exists_mem_cons_iff,
      or_iff_right (not_isForeign_of_isGap gap)]
  | case3 column first rest noGap comment => simp [of_decide_eq_true comment]
  | case4 column first rest noGap noComment kind more ih =>
    rw [Bool.not_eq_true] at noGap noComment
    have inside : ¬∃ character ∈ more, IsForeign character := by
      rintro ⟨character, member, foreign⟩
      have part := isNamePart_of_goesOn (List.mem_takeWhile_imp member)
      rw [foreign.1] at part
      cases part
    have head : (∃ character ∈ first :: more, IsForeign character) ↔ IsForeign first := by
      rw [List.exists_mem_cons_iff, or_iff_left inside]
    rw [takeWhile_eq_append noComment kind, List.exists_mem_cons_iff, ih,
      ← isForeign_iff noGap noComment, ← head]
    simp only [List.mem_append, or_and_right, exists_or]
    rfl

theorem exists_unknown_ofText_iff (source : String) :
    (∃ token ∈ ofText source, ∃ character, token.kind = .unknown character) ↔
      ∃ characters ∈ Text.lines source, ∃ character ∈ characters.takeWhile (· ≠ '#'),
        IsForeign character := by
  have kept : ∀ token, (token ∈ ofText source ∧ ∃ character, token.kind = .unknown character) ↔
      token ∈ (ofText source).filter (!·.kind.isEnd) ∧
        ∃ character, token.kind = .unknown character := by
    intro token
    rw [List.mem_filter, and_assoc]
    refine and_congr_right fun _ => (and_iff_right_of_imp ?_).symm
    rintro ⟨character, kind⟩
    rw [kind]
    rfl
  simp only [kept, filter_ofText, List.mem_flatMap]
  constructor
  · rintro ⟨token, ⟨numbered, inText, inLine⟩, unknown⟩
    have line := (exists_unknown_scanLine_iff _ _ _).1 ⟨token, inLine, unknown⟩
    exact ⟨numbered.1, List.fst_mem_of_mem_zipIdx inText, line⟩
  · rintro ⟨characters, inLines, foreign⟩
    rw [← List.zipIdx_map_fst 1 (Text.lines source)] at inLines
    obtain ⟨numbered, inText, rfl⟩ := List.mem_map.1 inLines
    obtain ⟨token, inLine, unknown⟩ := (exists_unknown_scanLine_iff numbered.2 1 _).2 foreign
    exact ⟨token, ⟨numbered, inText, inLine⟩, unknown⟩

section Text

variable {source : String} (short : source.length < UInt32.size - 1)
include short

theorem length_add_one_lt_size {numbered : List Char × Nat}
    (member : numbered ∈ (Text.lines source).zipIdx 1) :
    1 + numbered.1.length < UInt32.size := by
  have low := Text.length_le_of_mem_lines (List.fst_mem_of_mem_zipIdx member)
  omega

theorem exists_line_of_mem {token : Token}
    (member : token ∈ (ofText source).filter (!·.kind.isEnd)) :
    ∃ index characters offset, (Text.lines source)[index]? = some characters ∧
      token.position.line.toNat = index + 1 ∧ token.position.column.toNat = offset + 1 ∧
      Occurs characters offset token := by
  rw [filter_ofText] at member
  obtain ⟨⟨characters, number⟩, inText, inLine⟩ := List.mem_flatMap.1 member
  obtain ⟨offset, low, place, occurs⟩ := exists_occurs_of_mem_scanLine inLine
  obtain ⟨positive, found⟩ := List.mk_mem_zipIdx_iff_le_and_getElem?_sub.1 inText
  have columns := length_add_one_lt_size short inText
  refine ⟨number - 1, characters, offset, found, ?_, ?_, occurs⟩
  · rw [place, Position.ofNat, UInt32.toNat_ofNat_of_lt' (Text.number_lt_size_of_mem short inText)]
    omega
  · rw [place, toNat_column_ofNat (by omega)]
    omega

theorem pairwise_filter_ofText :
    ((ofText source).filter (!·.kind.isEnd)).Pairwise Precedes := by
  have numbers : ((Text.lines source).zipIdx 1).Pairwise (·.2 < ·.2) := by
    rw [← List.pairwise_map, List.zipIdx_map_snd]
    exact List.pairwise_lt_range' 1
  rw [filter_ofText, List.pairwise_flatMap]
  constructor
  · intro numbered member
    exact pairwise_scanLine (length_add_one_lt_size short member)
  · refine numbers.imp_of_mem ?_
    intro upper lower inUpper inLower less first inFirst second inSecond
    have fitsUpper := Text.number_lt_size_of_mem short inUpper
    have fitsLower := Text.number_lt_size_of_mem short inLower
    have lines : first.position.line < second.position.line := by
      obtain ⟨_, _, place, _⟩ := exists_occurs_of_mem_scanLine inFirst
      obtain ⟨_, _, next, _⟩ := exists_occurs_of_mem_scanLine inSecond
      rw [place, next]
      exact (UInt32.ofNat_lt_iff_lt fitsUpper fitsLower).2 less
    refine ⟨.inl lines, fun same => ?_⟩
    rw [same] at lines
    exact absurd lines (UInt32.lt_irrefl _)

theorem exists_covers_ofText_iff {index : Nat} {characters : List Char}
    (found : (Text.lines source)[index]? = some characters) (offset : Nat) :
    (∃ token ∈ (ofText source).filter (!·.kind.isEnd),
        token.position.line.toNat = index + 1 ∧ token.Covers (offset + 1)) ↔
      ∃ character, (characters.takeWhile (· ≠ '#'))[offset]? = some character ∧
        character ∉ [' ', '\t', '\r'] := by
  have inText : (characters, index + 1) ∈ (Text.lines source).zipIdx 1 := by
    rw [List.mk_mem_zipIdx_iff_le_and_getElem?_sub]
    exact ⟨Nat.le_add_left 1 index, found⟩
  have line := @exists_covers_iff characters (index + 1) 1 (length_add_one_lt_size short inText) offset
  simp only [← isGap_iff, Bool.not_eq_true]
  rw [← line, filter_ofText, Nat.add_comm offset]
  constructor
  · rintro ⟨token, member, number, covers⟩
    obtain ⟨other, inOther, inLine⟩ := List.mem_flatMap.1 member
    obtain ⟨_, _, place, _⟩ := exists_occurs_of_mem_scanLine inLine
    have same : UInt32.ofNat other.2 = .ofNat (index + 1) := by
      rw [← number, place, UInt32.ofNat_toNat]
      rfl
    cases Text.eq_of_ofNat_eq short inOther inText same
    exact ⟨token, inLine, covers⟩
  · rintro ⟨token, inLine, covers⟩
    obtain ⟨_, _, place, _⟩ := exists_occurs_of_mem_scanLine inLine
    refine ⟨token, List.mem_flatMap.2 ⟨_, inText, inLine⟩, ?_, covers⟩
    rw [place, Position.ofNat, UInt32.toNat_ofNat_of_lt' (Text.number_lt_size_of_mem short inText)]

end Text

/-- Scanning loses nothing, invents nothing and says exactly where everything stands. The tokens of a
text that stand for text are in the lines that their places name, none shares a character with another,
and together they have each character in front of a comment that is no space, tab or carriage return. -/
theorem tokens_occur_apart_and_cover {source : String} (short : source.length < UInt32.size - 1) :
    (∀ token ∈ (ofText source).filter (!·.kind.isEnd), token.text ≠ "" ∧
        ∃ index characters offset, (Text.lines source)[index]? = some characters ∧
          token.position.line.toNat = index + 1 ∧ token.position.column.toNat = offset + 1 ∧
          Occurs characters offset token) ∧
      ((ofText source).filter (!·.kind.isEnd)).Pairwise Precedes ∧
      ∀ index characters, (Text.lines source)[index]? = some characters → ∀ offset,
        (∃ token ∈ (ofText source).filter (!·.kind.isEnd),
            token.position.line.toNat = index + 1 ∧ token.Covers (offset + 1)) ↔
          ∃ character, (characters.takeWhile (· ≠ '#'))[offset]? = some character ∧
            character ∉ [' ', '\t', '\r'] := by
  refine ⟨?_, pairwise_filter_ofText short, ?_⟩
  · intro token member
    have line := exists_line_of_mem short member
    have ⟨_, _, _, _, _, _, occurs⟩ := line
    exact ⟨occurs.ne_empty, line⟩
  · intro index characters found offset
    exact exists_covers_ofText_iff short found offset

theorem tokens_of_digits_and_letters :
    let source := "f=1# one\n12ab\té\r"
    let tokens := (ofText source).filter (!·.kind.isEnd)
    source.length < UInt32.size - 1 ∧
      tokens = [⟨.identifier, "f", ⟨1, 1⟩⟩, ⟨.equals, "=", ⟨1, 2⟩⟩, ⟨.integer, "1", ⟨1, 3⟩⟩,
        ⟨.integer, "12", ⟨2, 1⟩⟩, ⟨.identifier, "ab", ⟨2, 3⟩⟩, ⟨.unknown 'é', "é", ⟨2, 6⟩⟩] ∧
      tokens.Pairwise Precedes ∧
      (∃ token ∈ tokens, token.position.line.toNat = 2 ∧ token.Covers 4) ∧
      ¬∃ token ∈ tokens, token.position.line.toNat = 2 ∧ token.Covers 5 := by
  intro source tokens
  have short : source.length < UInt32.size - 1 := by decide +kernel
  obtain ⟨_, apart, covered⟩ := tokens_occur_apart_and_cover short
  have second := covered 1 "12ab\té\r".toList (by decide +kernel)
  refine ⟨short, by decide +kernel, apart, ?_, ?_⟩
  · exact (second 3).2 ⟨'b', by decide +kernel, by decide⟩
  · intro tab
    obtain ⟨character, found, content⟩ := (second 4).1 tab
    cases found.symm.trans (show _ = some '\t' by decide +kernel)
    exact content (by decide)

end ShaderDefs.Token
