import ShaderDefs.Proofs.Text.Shown
import ShaderDefs.Proofs.Token.Grouping

/-! Carets. A diagnostic is shown with the line that it stands on, and the caret below that line is under
the first character of the token that stands there, or past the line if the token is its end. -/

set_option autoImplicit false

namespace ShaderDefs

namespace Token

variable {source : String} {token : Token}

theorem IsLexeme.isGap_eq_false {text : String} (lexeme : IsLexeme text) :
    ∀ character ∈ text.toList, isGap character = false := by
  obtain ⟨first, rest, same, noGap, _, _, goesOn⟩ := lexeme
  rw [same]
  refine List.forall_mem_cons.2 ⟨noGap, fun character member => ?_⟩
  rw [Bool.eq_false_iff]
  intro gap
  have more := goesOn character member
  rw [goesOn_eq_false_of_isGap gap] at more
  cases more

/-- The place of the token is the offset on the line with the index. A token that stands for text is taken
from the line there, and an end stands just past the line and has no text. -/
structure StandsAt (source : String) (token : Token) (index offset : Nat) (characters : List Char) :
    Prop where
  found : (Text.lines source)[index]? = some characters
  line : token.position.line.toNat = index + 1
  column : token.position.column.toNat = offset + 1
  text : token.kind.isEnd = false → IsLexeme token.text ∧ Occurs characters offset token
  ending : token.kind.isEnd → token.text = "" ∧ offset = characters.length

theorem standsAt_of_mem_ofLine (short : source.length < UInt32.size - 1) {number : Nat}
    {characters : List Char} (numbered : (characters, number) ∈ Definition.numberedStatements source)
    (member : token ∈ ofLine number characters) :
    ∃ offset, StandsAt source token (number - 1) offset characters := by
  obtain ⟨⟨first, found⟩, _⟩ := Definition.mem_numberedStatements_iff.1 numbered
  have inLines := List.mem_of_getElem? found
  have low := Text.length_le_of_mem_lines inLines
  have line : token.position.line.toNat = number - 1 + 1 := by
    rw [line_of_mem_ofLine member,
      UInt32.toNat_ofNat_of_lt' (Definition.number_lt_size short numbered), Nat.sub_add_cancel first]
  rcases mem_or_eq_of_mem_ofLine member with scanned | rfl
  · obtain ⟨offset, less, place, occurs⟩ := exists_occurs_of_mem_scanLine scanned
    have lexeme := (isLexeme_of_mem_scanLine (Text.notMem_of_mem_lines inLines) scanned).1
    refine ⟨offset, found, line, ?_, fun _ => ⟨lexeme, occurs⟩, ?_⟩
    · rw [place, toNat_column_ofNat (by omega), Nat.add_comm]
    · rw [isEnd_of_mem_scanLine scanned]
      exact nofun
  · exact ⟨characters.length, found, line, toNat_column_ofNat (by omega), nofun, fun _ => ⟨rfl, rfl⟩⟩

theorem exists_standsAt (short : source.length < UInt32.size - 1) (member : token ∈ ofText source) :
    ∃ index offset characters, StandsAt source token index offset characters := by
  obtain ⟨finish, same, closes, empty, past⟩ :=
    exists_inputEnd short (List.ne_nil_of_mem member)
  rw [same] at member
  rcases List.mem_append.1 member with inLines | last
  · obtain ⟨line, statement, inLine⟩ := List.mem_flatten.1 inLines
    rw [Definition.statements_eq_map] at statement
    obtain ⟨⟨characters, number⟩, numbered, rfl⟩ := List.mem_map.1 statement
    obtain ⟨offset, stands⟩ := standsAt_of_mem_ofLine short numbered inLine
    exact ⟨_, offset, characters, stands⟩
  · cases List.mem_singleton.1 last
    have lastLine := Text.getLast?_lines source
    rw [List.getLast?_eq_getElem?] at lastLine
    refine ⟨_, _, _, lastLine, ?_, ?_, ?_, fun _ => ⟨empty, rfl⟩⟩
    · rw [past.line, Text.length_lines, Nat.add_sub_cancel]
    · rw [past.column, List.length_reverse]
    · rw [closes]
      exact nofun

end Token

namespace Diagnostic

theorem lines_render (path : String) {lines : List String} (severity : Severity)
    {position : Position} (message : String) {shown : String} (noFeed : '\n' ∉ shown.toList)
    (found : lines[position.line.toNat - 1]? = some shown) :
    ∃ front, front ≠ [] ∧ Text.lines (render path lines severity position message) =
      front ++ [' ' :: ' ' :: shown.toList,
        List.replicate (position.column.toNat - 1 + 2) ' ' ++ ['^']] := by
  have margin : "\n  ".toList = ['\n', ' ', ' '] := rfl
  have caret : "^".toList = ['^'] := rfl
  have above : '\n' ∉ ' ' :: ' ' :: shown.toList := by simpa using noFeed
  have below : '\n' ∉ List.replicate (position.column.toNat - 1 + 2) ' ' ++ ['^'] := by
    simp [List.mem_replicate]
  refine ⟨(path ++ ": " ++ severity.label ++ ": " ++ message).toList.splitOn '\n',
    List.splitOn_ne_nil _ _, ?_⟩
  rw [Text.lines, render, found, Option.getD_some]
  generalize path ++ ": " ++ severity.label ++ ": " ++ message = head
  simp only [String.toList_append, margin, caret, String.toList_ofList, List.append_assoc,
    List.cons_append, List.nil_append]
  rw [List.splitOn_append_cons_self, ← List.cons_append, ← List.cons_append,
    List.splitOn_append_cons_self_of_not_mem above]
  congr 2
  exact List.splitOn_eq_singleton below

/-- The caret stands below the first character of the text of the token. Below a line end, which has no
text, it stands past the row above, two columns at most and just one if the line does not end in a
carriage return. -/
structure Marks (token : Token) (characters above : List Char) (caret : Nat) : Prop where
  text : token.text ≠ "" → token.text.toList <+: above.drop caret
  pastEnd : token.kind = .lineEnd → above.length ≤ caret ∧ caret + 1 ≤ above.length + 2
  justPastEnd : token.kind = .lineEnd → characters.getLast? ≠ some '\r' → caret = above.length

/-- The last two rows of the text are the line that the token is on, without its ending and behind two
spaces, and a caret that marks the token. -/
def PointsAt (source : String) (token : Token) (text : String) : Prop :=
  ∃ front index characters shown caret, front ≠ [] ∧
    Text.lines text =
      front ++ [' ' :: ' ' :: shown, List.replicate caret ' ' ++ ['^']] ∧
    (Text.lines source)[index]? = some characters ∧ token.position.line.toNat = index + 1 ∧
    Text.WithoutEnding (index + 1 < (Text.lines source).length) characters shown ∧
    Marks token characters (' ' :: ' ' :: shown) caret

variable {source : String} {token : Token}

theorem marks_of_standsAt {index offset : Nat} {characters shown : List Char} {fed : Prop}
    (stands : Token.StandsAt source token index offset characters)
    (without : Text.WithoutEnding fed characters shown) :
    Marks token characters (' ' :: ' ' :: shown) (offset + 2) := by
  obtain ⟨shorter, almost, whole⟩ := without.length
  constructor
  · intro some
    have inner : token.kind.isEnd = false := by
      rw [Bool.eq_false_iff]
      exact fun ends => some (stands.ending ends).1
    obtain ⟨lexeme, occurs⟩ := stands.text inner
    rw [List.drop_succ_cons, List.drop_succ_cons]
    -- No token has a carriage return, so nothing of it is lost with the ending.
    refine without.prefix_drop occurs.text fun isReturn => ?_
    exact absurd (lexeme.isGap_eq_false _ isReturn) (by decide)
  · intro kind
    obtain ⟨_, atEnd⟩ := stands.ending ((Token.Kind.isEnd_iff _).2 (.inl kind))
    simp only [List.length_cons]
    omega
  · intro kind noReturn
    obtain ⟨_, atEnd⟩ := stands.ending ((Token.Kind.isEnd_iff _).2 (.inl kind))
    simp only [List.length_cons, atEnd, whole noReturn]

/-- In a text of fewer than 2 ^ 32 - 1 characters whatever is rendered for the place of a token ends with
the line of the token and a caret below the token, also if it is no diagnostic of the text. -/
theorem caret_marks_token (short : source.length < UInt32.size - 1) (path : String)
    (member : token ∈ Token.ofText source) :
    (∀ severity message, PointsAt source token
      (render path (Text.shownLines source) severity token.position message)) ∧
    ∀ diagnostic : Diagnostic, diagnostic.position = token.position →
      PointsAt source token (diagnostic.format path source) := by
  have rendered : ∀ severity message, PointsAt source token
      (render path (Text.shownLines source) severity token.position message) := by
    intro severity message
    obtain ⟨index, offset, characters, stands⟩ := Token.exists_standsAt short member
    obtain ⟨shown, found, without⟩ := Text.exists_shown stands.found
    have noFeed : '\n' ∉ shown.toList := fun feed =>
      Text.notMem_of_mem_lines (List.mem_of_getElem? stands.found) (without.subset feed)
    rw [← Nat.add_sub_cancel index 1, ← stands.line] at found
    obtain ⟨front, some, rows⟩ := lines_render path severity message noFeed found
    rw [stands.column, Nat.add_sub_cancel] at rows
    exact ⟨front, index, characters, shown.toList, offset + 2, some, rows, stands.found, stands.line,
      without, marks_of_standsAt stands without⟩
  refine ⟨rendered, fun diagnostic same => ?_⟩
  rw [format, formatAmong, same]
  exact rendered _ _

theorem caret_marks_foreign_character :
    let source := "f =\tü\r\ng"
    let foreign : Token := ⟨.unknown 'ü', "ü", ⟨1, 5⟩⟩
    let lineEnd : Token := ⟨.lineEnd, "", ⟨1, 7⟩⟩
    let diagnostic : Diagnostic := .fault (.unknownCharacter ⟨1, 5⟩ 'ü')
    source.length < UInt32.size - 1 ∧ foreign ∈ Token.ofText source ∧
      lineEnd ∈ Token.ofText source ∧ diagnostic.position = foreign.position ∧
      Text.lines (diagnostic.format "f.sd" source) =
        ["f.sd: error: line 1:5: unexpected character 'ü'".toList, "  f =\tü".toList,
          "      ^".toList] ∧
      PointsAt source foreign (diagnostic.format "f.sd" source) ∧
      PointsAt source lineEnd
        (render "f.sd" (Text.shownLines source) .error ⟨1, 7⟩ "expecting '='") := by
  intro source foreign lineEnd diagnostic
  have short : source.length < UInt32.size - 1 := by decide +kernel
  have inText : foreign ∈ Token.ofText source := by decide +kernel
  have atEnd : lineEnd ∈ Token.ofText source := by decide +kernel
  exact ⟨short, inText, atEnd, rfl, by decide +kernel,
    (caret_marks_token short "f.sd" inText).2 diagnostic rfl,
    (caret_marks_token short "f.sd" atEnd).1 .error "expecting '='"⟩

end Diagnostic

end ShaderDefs
