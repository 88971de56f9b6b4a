import ShaderDefs.Proofs.Report.Concatenation

/-! Layout means nothing. Texts with the same tokens have the same reports but for places, and the
token lines of a text, scanned in their turn, are the tokens of the text. -/

set_option autoImplicit false

namespace ShaderDefs

open Definition (statements)

namespace Token

def content (token : Token) : Kind × String := (token.kind, token.text)

def unplaced (token : Token) : Token := token.relocate fun _ => .start

theorem unplaced_relocate (move : Position → Position) (token : Token) :
    (token.relocate move).unplaced = token.unplaced := rfl

theorem map_content_eq_iff {tokens others : List Token} :
    tokens.map content = others.map content ↔ tokens.map unplaced = others.map unplaced := by
  constructor
  · intro same
    have again := congrArg (List.map fun pair => Token.mk pair.1 pair.2 .start) same
    rwa [List.map_map, List.map_map] at again
  · intro same
    have again := congrArg (List.map content) same
    rwa [List.map_map, List.map_map] at again

theorem unplaced_closeText {tokens others : List Token} (lines more : List (List Char))
    (same : tokens.map unplaced = others.map unplaced) :
    (closeText lines tokens).map unplaced = (closeText more others).map unplaced := by
  cases tokens with
  | nil => rw [List.map_eq_nil_iff.1 same.symm]; rfl
  | cons token rest =>
    cases others with
    | nil => cases same
    | cons other tail =>
      simp only [closeText, List.map_append, same]
      rfl

theorem IsScanned.unplaced_ofLine {line : List Token} (scanned : IsScanned line) (number : Nat) :
    (ofLine number (lineText line).toList).map unplaced = line.map unplaced := by
  obtain ⟨body, finish, rfl, some, lexical, closes, empty⟩ := scanned
  have lexemes : ∀ word ∈ body.map (·.text), IsLexeme word :=
    List.forall_mem_map.2 fun token member => (lexical token member).1
  have again : (scanLine number 1 (lineText (body ++ [finish])).toList).map unplaced =
      body.map unplaced := by
    rw [lineText_eq_intercalate lexical closes, ← map_content_eq_iff]
    refine (scanLine_intercalate lexemes number 1).trans ?_
    rw [List.map_map]
    exact List.map_congr_left fun token member => Prod.ext (lexical token member).2 rfl
  have tokens : scanLine number 1 (lineText (body ++ [finish])).toList ≠ [] := by
    intro none
    rw [none, List.map_nil] at again
    exact some (List.map_eq_nil_iff.1 again.symm)
  rw [ofLine_eq_append tokens, List.map_append, List.map_append, again]
  simp [unplaced, relocate, closes, empty]

theorem IsScanned.notMem_lineText {line : List Token} (scanned : IsScanned line) :
    '\n' ∉ (lineText line).toList := by
  obtain ⟨body, finish, rfl, some, lexical, closes, empty⟩ := scanned
  rw [lineText_eq_intercalate lexical closes]
  exact notMem_intercalate (List.forall_mem_map.2 fun token member => (lexical token member).1)

theorem IsStatement.relocate {line : List Token} (statement : IsStatement line)
    (move : Position → Position) : IsStatement (line.map (·.relocate move)) := by
  obtain ⟨body, finish, rfl, some, inner, closes⟩ := statement
  refine ⟨body.map (·.relocate move), finish.relocate move, by simp, by simpa using some, ?_, closes⟩
  intro token member
  obtain ⟨other, inBody, rfl⟩ := List.mem_map.1 member
  exact inner other inBody

end Token

namespace Definition

def unplacedLines (lines : List (List Token)) : List (List Token) :=
  lines.map fun line => line.map Token.unplaced

theorem unplacedLines_below (count : Nat) (lines : List (List Token)) :
    unplacedLines (below count lines) = unplacedLines lines := by
  simp [unplacedLines, below, Token.unplaced_relocate]

theorem statements_map_unplaced (source : String) :
    statements ((Token.ofText source).map Token.unplaced) =
      unplacedLines (statements (Token.ofText source)) := by
  have scanned : ∀ line ∈ statements (Token.ofText source), Token.IsScanned line :=
    fun line member => isScanned_of_mem member
  obtain ⟨ends, same, isEnd⟩ := exists_ofText_eq source
  generalize statements (Token.ofText source) = lines at same scanned ⊢
  have closed : ∀ line ∈ unplacedLines lines, Token.IsStatement line := by
    intro line member
    obtain ⟨other, inLines, rfl⟩ := List.mem_map.1 member
    exact (scanned other inLines).isStatement.relocate _
  have flat : (lines.flatten).map Token.unplaced = (unplacedLines lines).flatten := by
    rw [List.map_flatten]
    rfl
  rw [same, List.map_append, flat, ← Option.toList_map]
  refine statements_flatten closed _ fun finish member => ?_
  obtain ⟨other, inEnds, rfl⟩ := Option.map_eq_some_iff.1 member
  exact (isEnd other inEnds).1

theorem unplaced_statements_eq_iff {first second : String} :
    unplacedLines (statements (Token.ofText first)) =
        unplacedLines (statements (Token.ofText second)) ↔
      (Token.ofText first).map Token.unplaced = (Token.ofText second).map Token.unplaced := by
  constructor
  · intro same
    rw [ofText_eq_closeText first, ofText_eq_closeText second]
    refine Token.unplaced_closeText _ _ ?_
    rw [List.map_flatten, List.map_flatten]
    exact congrArg List.flatten same
  · intro same
    rw [← statements_map_unplaced, same, statements_map_unplaced]

theorem unplaced_statements_eq_flatMap (source : String) :
    unplacedLines (statements (Token.ofText source)) =
      (Text.lines source).flatMap fun line =>
        unplacedLines (statements (Token.ofText (.ofList line))) := by
  rw [statements_eq_flatMap, unplacedLines, List.map_flatMap]
  conv_rhs => rw [← List.zipIdx_map_fst 0 (Text.lines source), List.flatMap_map]
  exact List.flatMap_congr fun numbered _ => unplacedLines_below _ _

theorem unplaced_statements_lineText {line : List Token} (scanned : Token.IsScanned line) :
    unplacedLines (statements (Token.ofText (.ofList (Token.lineText line).toList))) =
      [line.map Token.unplaced] := by
  have same := scanned.unplaced_ofLine 1
  have some : Token.ofLine 1 (Token.lineText line).toList ≠ [] := by
    obtain ⟨body, finish, rfl, _⟩ := scanned
    intro none
    simp [none] at same
  rw [← unplacedLines_below 0, below_statements_ofList scanned.notMem_lineText, ← same,
    List.filter_cons_of_pos (by simpa using some)]
  rfl

theorem unplaced_statements_tokenLines (source : String) :
    unplacedLines (statements (Token.ofText (Report.tokenLines source).text)) =
      unplacedLines (statements (Token.ofText source)) := by
  have scanned : ∀ line ∈ statements (Token.ofText source), Token.IsScanned line :=
    fun line member => isScanned_of_mem member
  have text : (Report.tokenLines source).text =
      String.join ((statements (Token.ofText source)).map (Token.lineText · ++ "\n")) :=
    congrArg Report.text (Report.report_eq_ofStatements .standard source .lexer)
  rw [text]
  generalize statements (Token.ofText source) = lines at scanned ⊢
  have each : ∀ text ∈ lines.map Token.lineText, '\n' ∉ text.toList := by
    intro text member
    obtain ⟨line, inLines, rfl⟩ := List.mem_map.1 member
    exact (scanned line inLines).notMem_lineText
  have normal : Text.lines (String.join (lines.map (Token.lineText · ++ "\n"))) =
      lines.map (fun line => (Token.lineText line).toList) ++ [[]] := by
    have joined := Text.lines_join each
    rwa [List.map_map, List.map_map] at joined
  have last : unplacedLines (statements (Token.ofText (.ofList []))) = [] := by
    rw [statements_ofList_nil]
    rfl
  rw [unplaced_statements_eq_flatMap, normal, List.flatMap_append, List.flatMap_map,
    List.flatMap_singleton, last, List.append_nil,
    List.flatMap_congr fun line member => unplaced_statements_lineText (scanned line member)]
  exact List.map_eq_flatMap.symm

end Definition

namespace Report

def unplaced (report : Report) : Report := report.relocate fun _ => .start

variable (rules : Lint.Rules)

theorem unplaced_report_eq_ofStatements (source : String) (stage : Stage) :
    (stage.report rules source).unplaced =
      ofStatements rules (Definition.unplacedLines (statements (Token.ofText source))) stage := by
  rw [report_eq_ofStatements, unplaced, ← ofStatements_relocate]
  · rfl
  · exact fun line member => Definition.isClosed_of_mem member

/-- Texts with the same token lines have the same tokens, and with the same tokens they have the same
reports, both but for places. -/
theorem text_tokenLines_eq_iff {first second : String} :
    (tokenLines first).text = (tokenLines second).text ↔
      (Token.ofText first).map Token.unplaced = (Token.ofText second).map Token.unplaced := by
  rw [← Definition.unplaced_statements_eq_iff]
  constructor
  · intro same
    rw [← Definition.unplaced_statements_tokenLines first, same,
      Definition.unplaced_statements_tokenLines]
  · intro same
    have reports := unplaced_report_eq_ofStatements .standard first .lexer
    rw [same, ← unplaced_report_eq_ofStatements] at reports
    have texts := congrArg Report.text reports
    exact texts

theorem unplaced_report_eq_of_tokenLines {first second : String}
    (same : (tokenLines first).text = (tokenLines second).text) (stage : Stage) :
    (stage.report rules first).unplaced = (stage.report rules second).unplaced := by
  rw [unplaced_report_eq_ofStatements, unplaced_report_eq_ofStatements,
    Definition.unplaced_statements_eq_iff.2 (text_tokenLines_eq_iff.1 same)]

/-- Layout never changes meaning. The token lines of a text are a text with the same tokens, they are
their own token lines, and every stage reports the same of them as of the text, places apart. Texts
that differ in blanks, comments and empty lines only, so that they have the same tokens, are those that
have the same token lines, and all their reports are the same, places apart. -/
theorem tokenLines_preserves_tokens_and_reports (source : String) :
    let normal := (tokenLines source).text
    (Token.ofText normal).map Token.content = (Token.ofText source).map Token.content ∧
      (tokenLines normal).text = normal ∧
      (∀ stage : Stage,
        (stage.report rules normal).unplaced = (stage.report rules source).unplaced) ∧
      ∀ other : String,
        ((tokenLines other).text = normal ↔
          (Token.ofText other).map Token.content = (Token.ofText source).map Token.content) ∧
        ((tokenLines other).text = normal → ∀ stage : Stage,
          (stage.report rules other).unplaced = (stage.report rules source).unplaced) := by
  intro normal
  have tokens : (Token.ofText normal).map Token.unplaced =
      (Token.ofText source).map Token.unplaced :=
    Definition.unplaced_statements_eq_iff.1 (Definition.unplaced_statements_tokenLines source)
  have fixed : (tokenLines normal).text = normal := text_tokenLines_eq_iff.2 tokens
  refine ⟨Token.map_content_eq_iff.2 tokens, fixed, unplaced_report_eq_of_tokenLines rules fixed,
    fun other => ⟨?_, fun same => unplaced_report_eq_of_tokenLines rules same⟩⟩
  rw [text_tokenLines_eq_iff, Token.map_content_eq_iff]

theorem tokenLines_of_two_layouts :
    let source := " f x=x+1 # next\r\n\n2\ty"
    let other := "f x = x + 1\n2 y"
    (tokenLines other).text = (tokenLines source).text ∧
      (Stage.validator.report .standard other).unplaced =
        (Stage.validator.report .standard source).unplaced ∧
      (Stage.validator.report .standard other).diagnostics ≠
        (Stage.validator.report .standard source).diagnostics := by
  intro source other
  have same : (tokenLines other).text = (tokenLines source).text := by decide +kernel
  obtain ⟨_, _, _, others⟩ := tokenLines_preserves_tokens_and_reports .standard source
  exact ⟨same, (others other).2 same .validator, by decide +kernel⟩

end Report

end ShaderDefs
