import ShaderDefs.Proofs.Report.Statements
import ShaderDefs.Proofs.Token.Coverage

/-! The tokens of a text, line by line. Every line with content has some tokens that stand for text and
then its line end, and after all lines comes the input end. A text without content has no tokens. -/

set_option autoImplicit false

namespace ShaderDefs

open Definition (statements numberedStatements)

variable {source : String}

namespace Token

/-- Some tokens that stand for text, and then one line end just past the last character. All of them are
on the line with the number. -/
structure IsGroup (characters : List Char) (number : Nat) (group : List Token) : Prop where
  line : ∀ token ∈ group, token.position.line.toNat = number
  closed : ∃ body finish, group = body ++ [finish] ∧ body ≠ [] ∧
    (∀ token ∈ body, token.kind.isEnd = false) ∧ finish.kind = .lineEnd ∧ finish.text = "" ∧
    finish.position.column.toNat = characters.length + 1

theorem isGroup_ofLine {characters : List Char} {number : Nat} (low : number < UInt32.size)
    (fits : characters.length + 1 < UInt32.size) (some : ofLine number characters ≠ []) :
    IsGroup characters number (ofLine number characters) where
  line token member := by
    rw [line_of_mem_ofLine member]
    exact UInt32.toNat_ofNat_of_lt' low
  closed := by
    have tokens := scanLine_ne_nil_of_ofLine some
    refine ⟨_, _, ofLine_eq_append tokens, tokens, fun token member => isEnd_of_mem_scanLine member, rfl, rfl, ?_⟩
    exact toNat_column_ofNat fits

end Token

namespace Definition

theorem numberedStatements_eq_filter (source : String) :
    numberedStatements source =
      ((Text.lines source).zipIdx 1).filter fun numbered => Token.HasContent numbered.1 := by
  refine List.filter_congr fun numbered _ => ?_
  rw [Bool.eq_iff_iff, decide_eq_true_iff, ← Token.ofLine_ne_nil_iff numbered.2]
  simp

theorem forall₂_isGroup (short : source.length < UInt32.size - 1) :
    List.Forall₂ (fun numbered group => Token.IsGroup numbered.1 numbered.2 group)
      (numberedStatements source) (statements (Token.ofText source)) := by
  rw [statements_eq_map, List.forall₂_map_right_iff, List.forall₂_same]
  rintro ⟨characters, number⟩ member
  obtain ⟨⟨_, found⟩, content⟩ := mem_numberedStatements_iff.1 member
  have low := Text.length_le_of_mem_lines (List.mem_of_getElem? found)
  have fits : characters.length + 1 < UInt32.size := by omega
  exact Token.isGroup_ofLine (number_lt_size short member) fits
    ((Token.ofLine_ne_nil_iff number characters).2 content)

end Definition

namespace Token

theorem ofText_eq_nil_iff (source : String) :
    ofText source = [] ↔ ∀ characters ∈ Text.lines source, ¬HasContent characters := by
  have closed : ∀ lines tokens, closeText lines tokens = [] ↔ tokens = [] := by
    intro lines tokens
    cases tokens with
    | nil => simp [closeText]
    | cons token rest => simp [closeText]
  rw [ofText, closed, List.flatMap_eq_nil_iff]
  constructor
  · intro none characters member content
    rw [← List.zipIdx_map_fst 1 (Text.lines source)] at member
    obtain ⟨numbered, inText, rfl⟩ := List.mem_map.1 member
    exact (ofLine_ne_nil_iff numbered.2 numbered.1).2 content (none numbered inText)
  · intro none numbered inText
    by_contra some
    exact none numbered.1 (List.fst_mem_of_mem_zipIdx inText)
      ((ofLine_ne_nil_iff numbered.2 numbered.1).1 some)

/-- The place is just past the last character of the text: on the line behind the last line feed, one
column further than there are characters on it. -/
structure IsPast (source : String) (position : Position) : Prop where
  line : position.line.toNat = source.toList.count '\n' + 1
  column : position.column.toNat = (source.toList.reverse.takeWhile (· ≠ '\n')).length + 1

theorem isPast_ofNat (short : source.length < UInt32.size - 1) :
    IsPast source
      (.ofNat (Text.lines source).length (((Text.lines source).getLast?.getD []).length + 1)) := by
  have few := Text.length_lines_le source
  have last := Text.getLast?_lines source
  have low := Text.length_le_of_mem_lines (List.mem_of_getLast? last)
  rw [last, Option.getD_some]
  rw [List.length_reverse] at low ⊢
  constructor
  · rw [Position.ofNat, UInt32.toNat_ofNat_of_lt' (by omega), Text.length_lines]
  · exact toNat_column_ofNat (by omega)

theorem exists_inputEnd (short : source.length < UInt32.size - 1) (some : ofText source ≠ []) :
    ∃ finish, ofText source = (statements (ofText source)).flatten ++ [finish] ∧
      finish.kind = .inputEnd ∧ finish.text = "" ∧ IsPast source finish.position := by
  have same := Definition.ofText_eq_closeText source
  generalize (statements (ofText source)).flatten = tokens at same ⊢
  cases tokens with
  | nil => exact absurd same some
  | cons token rest => exact ⟨_, same, rfl, rfl, isPast_ofNat short⟩

/-- A text of fewer than 2 ^ 32 - 1 characters has no tokens exactly if no line has anything other than
spaces, tabs and carriage returns in front of its comment. Otherwise its tokens are a group for each
line that has, in the order of the lines, and after all of them the one input end just past the last
character. The groups are the lines that definitions are read from. -/
theorem ofText_is_groups_of_lines (short : source.length < UInt32.size - 1) :
    (ofText source = [] ↔ ∀ characters ∈ Text.lines source, ¬HasContent characters) ∧
      (ofText source ≠ [] → ∃ groups finish, ofText source = groups.flatten ++ [finish] ∧
        List.Forall₂ (fun numbered group => IsGroup numbered.1 numbered.2 group)
          (((Text.lines source).zipIdx 1).filter fun numbered => HasContent numbered.1) groups ∧
        finish.kind = .inputEnd ∧ finish.text = "" ∧ IsPast source finish.position ∧
        groups = statements (ofText source)) := by
  refine ⟨ofText_eq_nil_iff source, fun some => ?_⟩
  obtain ⟨finish, same, kind, empty, past⟩ := exists_inputEnd short some
  have groups := Definition.forall₂_isGroup short
  rw [Definition.numberedStatements_eq_filter] at groups
  exact ⟨_, finish, same, groups, kind, empty, past, rfl⟩

theorem ofText_is_groups_of_four_lines :
    let source := "f = 1 # c\r\n\n\t# x\n g=2 "
    source.length < UInt32.size - 1 ∧ ofText source ≠ [] ∧
      (∃ first second finish, ofText source = first ++ second ++ [finish] ∧
        IsGroup "f = 1 # c\r".toList 1 first ∧ IsGroup " g=2 ".toList 4 second ∧
        finish.kind = .inputEnd ∧ finish.position.line.toNat = 4 ∧
        finish.position.column.toNat = 6) ∧
      ofText "\n\t# x\r\n \r" = [] := by
  intro source
  have short : source.length < UInt32.size - 1 := by decide +kernel
  have some : ofText source ≠ [] := by decide +kernel
  have lines : ((Text.lines source).zipIdx 1).filter (fun numbered => HasContent numbered.1) =
      [("f = 1 # c\r".toList, 1), (" g=2 ".toList, 4)] := by decide +kernel
  obtain ⟨groups, finish, same, each, kind, _, past, _⟩ := (ofText_is_groups_of_lines short).2 some
  rw [lines] at each
  obtain ⟨first, rest, one, others, rfl⟩ := List.forall₂_cons_left_iff.1 each
  obtain ⟨second, none, two, last, rfl⟩ := List.forall₂_cons_left_iff.1 others
  cases List.forall₂_nil_left_iff.1 last
  refine ⟨short, some, ⟨first, second, finish, ?_, one, two, kind, ?_, ?_⟩, ?_⟩
  · rw [same, List.flatten_cons, List.flatten_cons, List.flatten_nil, List.append_nil]
  · rw [past.line]
    decide +kernel
  · rw [past.column]
    decide +kernel
  · exact (ofText_is_groups_of_lines (by decide +kernel)).1.2 (by decide +kernel)

end Token

end ShaderDefs
