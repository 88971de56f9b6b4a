import ShaderDefs.Proofs.Definition.Recovery
import ShaderDefs.Proofs.Token.Scanning

/-! Reports depend on statement lines only. A report of any stage is made of what each statement line
of the text gives, in the order of the lines, and it moves along with them. -/

set_option autoImplicit false

namespace ShaderDefs

open Definition (statements)

namespace Token

def IsScanned (line : List Token) : Prop :=
  ∃ body finish, line = body ++ [finish] ∧ body ≠ [] ∧
    (∀ token ∈ body, IsLexeme token.text ∧ Kind.ofText token.text = token.kind) ∧
    finish.kind = .lineEnd ∧ finish.text = ""

theorem isScanned_ofLine {number : Nat} {characters : List Char} (oneLine : '\n' ∉ characters)
    (some : ofLine number characters ≠ []) : IsScanned (ofLine number characters) := by
  have tokens := scanLine_ne_nil_of_ofLine some
  exact ⟨_, _, ofLine_eq_append tokens, tokens,
    fun token member => isLexeme_of_mem_scanLine oneLine member, rfl, rfl⟩

theorem isEnd_eq_false_of_ofText {token : Token} (kind : Kind.ofText token.text = token.kind) :
    token.kind.isEnd = false := by
  rw [← kind]
  exact Kind.isEnd_ofFirst _

theorem IsScanned.isStatement {line : List Token} (scanned : IsScanned line) : IsStatement line := by
  obtain ⟨body, finish, rfl, some, lexical, closes, _⟩ := scanned
  exact ⟨body, finish, rfl, some,
    fun token member => isEnd_eq_false_of_ofText (lexical token member).2, closes⟩

theorem lineText_eq_intercalate {body : List Token} {finish : Token}
    (lexical : ∀ token ∈ body, IsLexeme token.text ∧ Kind.ofText token.text = token.kind)
    (closes : finish.kind = .lineEnd) :
    lineText (body ++ [finish]) = " ".intercalate (body.map (·.text)) := by
  have inner : ∀ token ∈ body, token.kind.isEnd = false :=
    fun token member => isEnd_eq_false_of_ofText (lexical token member).2
  have kept : (body ++ [finish]).filter (!·.kind.isEnd) = body := by
    rw [List.filter_append, List.filter_eq_self.2, List.filter_eq_nil_iff.2, List.append_nil]
    · simp [closes, Kind.isEnd]
    · simpa using inner
  rw [lineText, kept]

theorem IsScanned.isEmpty_lineText {line : List Token} (scanned : IsScanned line) :
    (lineText line).isEmpty = false := by
  obtain ⟨body, finish, rfl, some, lexical, closes, _⟩ := scanned
  obtain ⟨token, rest, rfl⟩ := List.exists_cons_of_ne_nil some
  have ne := (lexical token List.mem_cons_self).1.ne_empty
  rw [lineText_eq_intercalate lexical closes, String.isEmpty_eq_false_iff]
  cases rest with
  | nil => simpa using ne
  | cons next rest => simp [ne]

theorem IsScanned.text_eq_empty_iff {line : List Token} (scanned : IsScanned line) {token : Token}
    (member : token ∈ line) : token.text = "" ↔ token.kind = .lineEnd := by
  obtain ⟨body, finish, rfl, _, lexical, closes, empty⟩ := scanned
  rcases List.mem_append.1 member with inBody | last
  · obtain ⟨lexeme, kind⟩ := lexical token inBody
    refine iff_of_false lexeme.ne_empty fun same => ?_
    have inner := isEnd_eq_false_of_ofText kind
    rw [same] at inner
    cases inner
  · cases List.mem_singleton.1 last
    exact iff_of_true empty closes

end Token

namespace Definition

theorem isScanned_of_mem {source : String} {line : List Token}
    (statement : line ∈ statements (Token.ofText source)) : Token.IsScanned line := by
  rw [statements_eq_map] at statement
  obtain ⟨⟨characters, number⟩, member, rfl⟩ := List.mem_map.1 statement
  obtain ⟨⟨_, found⟩, content⟩ := mem_numberedStatements_iff.1 member
  exact Token.isScanned_ofLine (Text.notMem_of_mem_lines (List.mem_of_getElem? found))
    ((Token.ofLine_ne_nil_iff number characters).2 content)

theorem ofText_eq_closeText (source : String) :
    Token.ofText source =
      Token.closeText (Text.lines source) (statements (Token.ofText source)).flatten := by
  rw [statements_ofText, List.flatten_filter_not_isEmpty, ← List.flatMap_def]
  rfl

theorem exists_ofText_eq (source : String) :
    ∃ ends : Option Token,
      Token.ofText source = (statements (Token.ofText source)).flatten ++ ends.toList ∧
        ∀ finish ∈ ends, finish.kind = .inputEnd ∧ finish.text = "" := by
  have same := ofText_eq_closeText source
  generalize (statements (Token.ofText source)).flatten = tokens at same ⊢
  cases tokens with
  | nil => exact ⟨none, same, nofun⟩
  | cons token rest =>
    refine ⟨some _, same, ?_⟩
    rintro _ ⟨⟩
    exact ⟨rfl, rfl⟩

theorem mem_ofText_of_mem {source : String} {line : List Token}
    (statement : line ∈ statements (Token.ofText source)) {token : Token} (member : token ∈ line) :
    token ∈ Token.ofText source := by
  obtain ⟨ends, same, _⟩ := exists_ofText_eq source
  rw [same]
  exact List.mem_append_left _ (List.mem_flatten_of_mem statement member)

theorem exists_mem_of_mem_ofText {source : String} {token : Token}
    (member : token ∈ Token.ofText source) :
    (∃ line ∈ statements (Token.ofText source), token ∈ line) ∨ token.kind = .inputEnd := by
  obtain ⟨ends, same, isEnd⟩ := exists_ofText_eq source
  rw [same] at member
  rcases List.mem_append.1 member with inLines | last
  · exact .inl (List.mem_flatten.1 inLines)
  · exact .inr (isEnd token (Option.mem_toList.1 last)).1

theorem ofResults_relocate {move : Position → Position} {lines : List (List Token)}
    (closed : ∀ line ∈ lines, IsClosed line) :
    (Recovered.ofResults
        ((lines.map fun line => line.map (·.relocate move)).map readLine)).definitions =
      (Recovered.ofResults (lines.map readLine)).definitions.map (·.relocate move) ∧
    (Recovered.ofResults
        ((lines.map fun line => line.map (·.relocate move)).map readLine)).faults =
      (Recovered.ofResults (lines.map readLine)).faults.map (·.relocate move) := by
  simp only [Recovered.ofResults]
  induction lines with
  | nil => exact ⟨rfl, rfl⟩
  | cons line lines ih =>
    obtain ⟨head, tail⟩ := List.forall_mem_cons.1 closed
    obtain ⟨definitions, faults⟩ := ih tail
    simp only [List.map_cons, List.filterMap_cons, readLine_relocate head, definitions, faults]
    cases readLine line with
    | error fault => exact ⟨rfl, rfl⟩
    | ok definition => exact ⟨rfl, rfl⟩

end Definition

namespace Report

variable (rules : Lint.Rules)

/-- What a stage reports of statement lines. -/
def ofStatements (lines : List (List Token)) : Stage → Report
  | .lexer => {
      text := String.join (lines.map (Token.lineText · ++ "\n"))
      diagnostics := (lines.flatMap Fault.unknownCharacters).map .fault
      program := none }
  | .parser =>
    let recovered := Definition.Recovered.ofResults (lines.map Definition.readLine)
    { text := String.join (recovered.definitions.map (·.print))
      diagnostics := recovered.faults.map .fault
      program := none }
  | .validator =>
    let recovered := Definition.Recovered.ofResults (lines.map Definition.readLine)
    let validation := Validation.ofDefinitions rules recovered.definitions
    { text := validation.program.describe
      diagnostics := recovered.faults.map .fault ++ validation.findings.map .finding
      program := some validation.program }

theorem groups_ofText (source : String) :
    (Token.groups (Token.ofText source)).filter (fun line => !(Token.lineText line).isEmpty) =
      statements (Token.ofText source) := by
  obtain ⟨ends, same, isEnd⟩ := Definition.exists_ofText_eq source
  have scanned : ∀ line ∈ statements (Token.ofText source), Token.IsScanned line :=
    fun line member => Definition.isScanned_of_mem member
  generalize statements (Token.ofText source) = lines at same scanned ⊢
  have kept : lines.filter (fun line => !(Token.lineText line).isEmpty) = lines := by
    refine List.filter_eq_self.2 fun line member => ?_
    rw [(scanned line member).isEmpty_lineText]
    rfl
  rw [same, Token.groups_flatten fun line member => (scanned line member).isStatement,
    List.filter_append, kept]
  cases ends with
  | none => exact List.append_nil _
  | some finish =>
    have kind := (isEnd finish rfl).1
    have group : Token.groups [finish] = [[finish]] := rfl
    simp [group, Token.lineText, kind, Token.Kind.isEnd]

theorem unknownCharacters_ofText (source : String) :
    Fault.unknownCharacters (Token.ofText source) =
      (statements (Token.ofText source)).flatMap Fault.unknownCharacters := by
  obtain ⟨ends, same, isEnd⟩ := Definition.exists_ofText_eq source
  have known : ends.toList.filterMap Fault.ofToken? = [] := by
    refine List.filterMap_eq_nil_iff.2 fun finish member => ?_
    simp [Fault.ofToken?, isEnd finish (Option.mem_toList.1 member)]
  rw [congrArg Fault.unknownCharacters same, Fault.unknownCharacters, List.filterMap_append, known,
    List.append_nil, List.filterMap_flatten, List.flatMap_def]
  rfl

/-- The report of a text is the report of its statement lines. -/
theorem report_eq_ofStatements (source : String) (stage : Stage) :
    stage.report rules source = ofStatements rules (statements (Token.ofText source)) stage := by
  cases stage with
  | lexer =>
    simp only [Stage.report, tokenLines, ofStatements, unknownCharacters_ofText]
    congr 2
    rw [← groups_ofText source]
    simp [List.filter_map, Function.comp_def]
  | parser => rfl
  | validator => rfl

theorem ofStatements_relocate {move : Position → Position} {lines : List (List Token)}
    (closed : ∀ line ∈ lines, Definition.IsClosed line) (stage : Stage) :
    ofStatements rules (lines.map fun line => line.map (·.relocate move)) stage =
      (ofStatements rules lines stage).relocate move := by
  obtain ⟨definitions, faults⟩ := @Definition.ofResults_relocate move lines closed
  cases stage with
  | lexer =>
    simp [ofStatements, relocate, Token.lineText_relocate, Fault.unknownCharacters_relocate,
      Diagnostic.relocate, List.flatMap_map, List.map_flatMap, Function.comp_def]
  | parser =>
    simp only [ofStatements, definitions, faults]
    simp [relocate, Diagnostic.relocate, Definition.relocate, Definition.print, Function.comp_def]
  | validator =>
    simp only [ofStatements, definitions, faults, Validation.ofDefinitions, Lint.check_relocate,
      Program.ofDefinitions_relocate, Program.describe_relocate]
    simp [relocate, Diagnostic.relocate, Function.comp_def]

end Report

end ShaderDefs
