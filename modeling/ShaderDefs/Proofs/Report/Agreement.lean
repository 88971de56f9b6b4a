import ShaderDefs.Proofs.Report.Concatenation

/-! What the stages say of one line. Where a line has characters outside the language, the first of them
is all that is wrong with it and the line defines nothing. Any other line with tokens is read to one
definition or to one fault. So the stages agree on which texts have errors. -/

set_option autoImplicit false

namespace ShaderDefs

open Definition (statements readLine numberedStatements)

def Diagnostic.isUnknownCharacter : Diagnostic → Bool
  | .fault (.unknownCharacter _ _) => true
  | _ => false

theorem Fault.isUnknownCharacter_of_ofToken? {token : Token} {fault : Fault}
    (made : ofToken? token = some fault) : (Diagnostic.fault fault).isUnknownCharacter := by
  unfold ofToken? at made
  split at made
  · cases made
    rfl
  · cases made

namespace Definition

variable {line : List Token} {fault : Fault}

theorem readLine_of_unknownCharacters {others : List Fault}
    (unknown : Fault.unknownCharacters line = fault :: others) : readLine line = .error fault := by
  have first : line.findSome? Fault.ofToken? = some fault := by
    rw [← List.head?_filterMap, ← Fault.unknownCharacters, unknown, List.head?_cons]
  rw [readLine, first]

theorem exists_unexpected_of_readLine (closed : IsClosed line)
    (known : Fault.unknownCharacters line = []) (read : readLine line = .error fault) :
    ∃ position expected found, fault = .unexpected position expected found := by
  cases fault with
  | unexpected position expected found => exact ⟨position, expected, found, rfl⟩
  | unknownCharacter position character =>
    obtain ⟨token, member, _, kind⟩ := exists_mem_of_readLine closed read
    have made : Fault.ofToken? token = some (.unknownCharacter token.position character) := by
      rw [Fault.ofToken?, kind]
    have inLine := List.mem_filterMap.2 ⟨token, member, made⟩
    rw [← Fault.unknownCharacters, known] at inLine
    cases inLine

/-- A character outside the language is the one fault of its line. Without any, a line is read to one
definition or has one fault of syntax. -/
theorem ofResults_readLine (closed : IsClosed line) :
    let alone := Recovered.ofResults [readLine line]
    (∀ fault others, Fault.unknownCharacters line = fault :: others →
      alone.faults = [fault] ∧ alone.definitions = []) ∧
    (Fault.unknownCharacters line = [] →
      (∃ definition, alone.definitions = [definition] ∧ alone.faults = []) ∨
        ∃ position expected found,
          alone.faults = [.unexpected position expected found] ∧ alone.definitions = []) := by
  constructor
  · intro fault others unknown
    rw [readLine_of_unknownCharacters unknown]
    exact ⟨rfl, rfl⟩
  · intro known
    cases read : readLine line with
    | ok definition => exact .inl ⟨definition, rfl, rfl⟩
    | error fault =>
      obtain ⟨position, expected, found, rfl⟩ := exists_unexpected_of_readLine closed known read
      exact .inr ⟨position, expected, found, rfl, rfl⟩

theorem exists_token_iff {source : String} {number : UInt32} :
    (∃ token ∈ Token.ofText source, token.kind.isEnd = false ∧ token.position.line = number) ↔
      ∃ numbered ∈ numberedStatements source, .ofNat numbered.2 = number := by
  constructor
  · rintro ⟨token, inText, inner, place⟩
    rcases exists_mem_of_mem_ofText inText with ⟨line, statement, inLine⟩ | ends
    · rw [statements_eq_map] at statement
      obtain ⟨numbered, member, rfl⟩ := List.mem_map.1 statement
      exact ⟨numbered, member, (Token.line_of_mem_ofLine inLine).symm.trans place⟩
    · simp [ends, Token.Kind.isEnd] at inner
  · rintro ⟨numbered, member, place⟩
    have statement := ofLine_mem_statements member
    obtain ⟨body, finish, same, some, inner, _⟩ := isStatement_of_mem statement
    obtain ⟨token, rest, rfl⟩ := List.exists_cons_of_ne_nil some
    have inLine : token ∈ Token.ofLine numbered.2 numbered.1 := by
      rw [same]
      exact List.mem_cons_self
    exact ⟨token, mem_ofText_of_mem statement inLine, inner token List.mem_cons_self,
      (Token.line_of_mem_ofLine inLine).trans place⟩

theorem definitions_recover_statements (source : String) :
    (recover (Token.ofText source)).definitions =
      (numberedStatements source).flatMap fun numbered =>
        (Recovered.ofResults [readLine (Token.ofLine numbered.2 numbered.1)]).definitions := by
  simp only [recover, statements_eq_map, Recovered.ofResults, List.filterMap_eq_flatMap_toList,
    List.flatMap_map, List.flatMap_singleton]

end Definition

namespace Report

/-- What scanning finds on a line, what reading refuses there and what it defines there go together. -/
structure LineAgrees (hasToken : Prop) (found refused : List Diagnostic) (read : List Definition) :
    Prop where
  unknown : ∀ first others, found = first :: others → refused = [first] ∧ read = []
  known : found = [] → hasToken →
    (∃ definition, read = [definition] ∧ refused = []) ∨
      ∃ position expected text,
        refused = [.fault (.unexpected position expected text)] ∧ read = []
  empty : ¬hasToken → found = [] ∧ refused = [] ∧ read = []

section Line

variable {source : String} (short : source.length < UInt32.size - 1)
variable {numbered : List Char × Nat} (member : numbered ∈ numberedStatements source)
variable (rules : Lint.Rules)
include short member

theorem diagnostics_on_line {stage : Stage} (early : stage ≠ .validator) :
    (stage.report rules source).diagnostics.filter (·.position.line = .ofNat numbered.2) =
      (ofStatements rules [Token.ofLine numbered.2 numbered.1] stage).diagnostics := by
  rw [diagnostics_report_statements rules source early]
  apply Definition.filter_flatMap_numberedStatements short member
  · intro diagnostic given
    exact decide_eq_true (line_of_mem_diagnostics rules early member given)
  · intro other inLines diagnostic given same
    rw [← line_of_mem_diagnostics rules early inLines given]
    exact of_decide_eq_true same

theorem definitions_on_line :
    (Definition.recover (Token.ofText source)).definitions.filter
        (·.position.line = .ofNat numbered.2) =
      (Definition.Recovered.ofResults
        [readLine (Token.ofLine numbered.2 numbered.1)]).definitions := by
  have own : ∀ other ∈ numberedStatements source, ∀ definition ∈
      (Definition.Recovered.ofResults [readLine (Token.ofLine other.2 other.1)]).definitions,
      definition.position.line = .ofNat other.2 := by
    intro other inLines definition given
    cases read : readLine (Token.ofLine other.2 other.1) with
    | error fault => simp [read, Definition.Recovered.ofResults] at given
    | ok found =>
      obtain rfl : definition = found := by
        simpa [read, Definition.Recovered.ofResults] using given
      exact (Definition.line_of_readLine inLines).1 definition read
  rw [Definition.definitions_recover_statements]
  apply Definition.filter_flatMap_numberedStatements short member
  · intro definition given
    exact decide_eq_true (own numbered member definition given)
  · intro other inLines definition given same
    rw [← own other inLines definition given]
    exact of_decide_eq_true same

theorem filter_line_eq :
    (Stage.lexer.report rules source).diagnostics.filter (·.position.line = .ofNat numbered.2) =
        (Fault.unknownCharacters (Token.ofLine numbered.2 numbered.1)).map .fault ∧
      (Stage.parser.report rules source).diagnostics.filter (·.position.line = .ofNat numbered.2) =
        (Definition.Recovered.ofResults
          [readLine (Token.ofLine numbered.2 numbered.1)]).faults.map .fault ∧
      (Definition.recover (Token.ofText source)).definitions.filter
          (·.position.line = .ofNat numbered.2) =
        (Definition.Recovered.ofResults
          [readLine (Token.ofLine numbered.2 numbered.1)]).definitions := by
  have lexer : Stage.lexer ≠ .validator := nofun
  have parser : Stage.parser ≠ .validator := nofun
  refine ⟨?_, ?_, definitions_on_line short member⟩
  · rw [diagnostics_on_line short member rules lexer, ofStatements, List.flatMap_singleton]
  · rw [diagnostics_on_line short member rules parser, ofStatements, List.map_singleton]

omit short member in
theorem filter_line_eq_nil {number : UInt32}
    (absent : ¬∃ numbered ∈ numberedStatements source, .ofNat numbered.2 = number) :
    (∀ stage : Stage, stage ≠ .validator →
      (stage.report rules source).diagnostics.filter (·.position.line = number) = []) ∧
    (Definition.recover (Token.ofText source)).definitions.filter (·.position.line = number) = [] := by
  simp only [List.filter_eq_nil_iff, decide_eq_true_eq]
  constructor
  · intro stage early diagnostic given same
    obtain ⟨numbered, member, place⟩ := exists_number_of_mem_diagnostics rules early given
    exact absent ⟨numbered, member, place.symm.trans same⟩
  · intro definition given same
    obtain ⟨numbered, member, place⟩ := exists_number_of_mem_recover given
    exact absent ⟨numbered, member, place.symm.trans same⟩

theorem find?_line :
    (Stage.lexer.report rules source).diagnostics.find? (·.position.line = .ofNat numbered.2) =
      (Fault.unknownCharacters (Token.ofLine numbered.2 numbered.1)).head?.map .fault := by
  rw [← List.head?_filter, (filter_line_eq short member rules).1, List.head?_map]

theorem filter_isUnknownCharacter_line :
    (ofStatements rules [Token.ofLine numbered.2 numbered.1] .parser).diagnostics.filter
        (·.isUnknownCharacter) =
      ((Stage.lexer.report rules source).diagnostics.find?
        (·.position.line = .ofNat numbered.2)).toList := by
  have closed := Definition.isClosed_of_mem (Definition.ofLine_mem_statements member)
  obtain ⟨unknown, known⟩ := Definition.ofResults_readLine closed
  rw [find?_line short member rules]
  simp only [ofStatements, List.map_singleton]
  cases found : Fault.unknownCharacters (Token.ofLine numbered.2 numbered.1) with
  | nil =>
    rcases known found with ⟨_, _, none⟩ | ⟨position, expected, text, one, _⟩
    · rw [none]
      rfl
    · rw [one]
      rfl
  | cons first others =>
    have inLine : first ∈ Fault.unknownCharacters (Token.ofLine numbered.2 numbered.1) := by
      rw [found]
      exact List.mem_cons_self
    obtain ⟨token, _, made⟩ := List.mem_filterMap.1 inLine
    rw [(unknown first others found).1, List.map_singleton,
      List.filter_cons_of_pos (Fault.isUnknownCharacter_of_ofToken? made)]
    rfl

omit member in
theorem filter_isUnknownCharacter :
    (Stage.parser.report rules source).diagnostics.filter (·.isUnknownCharacter) =
      (List.range' 1 (Text.lines source).length).filterMap fun number =>
        (Stage.lexer.report rules source).diagnostics.find? (·.position.line = .ofNat number) := by
  have early : Stage.parser ≠ .validator := by decide
  rw [diagnostics_report_statements rules source early, List.filter_flatMap,
    List.flatMap_congr fun numbered member => filter_isUnknownCharacter_line short member rules,
    ← List.filterMap_eq_flatMap_toList, numberedStatements,
    ← List.zipIdx_map_snd 1 (Text.lines source), List.filterMap_map, List.filterMap_filter]
  refine List.filterMap_congr fun numbered inLines => ?_
  split
  next => rfl
  next empty =>
    -- A line without tokens has nothing to report.
    have absent : ¬∃ other ∈ numberedStatements source,
        UInt32.ofNat other.2 = .ofNat numbered.2 := by
      rintro ⟨other, member, same⟩
      cases Text.eq_of_ofNat_eq short (List.mem_filter.1 member).1 inLines same
      exact empty (List.mem_filter.1 member).2
    have none := (filter_line_eq_nil rules absent).1 .lexer (by decide)
    rw [Function.comp_apply, ← List.head?_filter, none, List.head?_nil]

omit short member in
theorem hasErrors_iff {stage : Stage} (early : stage ≠ .validator) :
    (stage.report rules source).hasErrors ↔ (stage.report rules source).diagnostics ≠ [] := by
  have fault : ∀ faults : List Fault,
      (faults.map Diagnostic.fault).any (·.isFault) ↔ faults.map Diagnostic.fault ≠ [] := by
    intro faults
    cases faults with
    | nil => simp
    | cons first others => simp [Diagnostic.isFault]
  cases stage with
  | lexer => exact fault _
  | parser => exact fault _
  | validator => exact absurd rfl early

omit member in
theorem lineAgrees_filter_line (number : UInt32) :
    LineAgrees
      (∃ token ∈ Token.ofText source, token.kind.isEnd = false ∧ token.position.line = number)
      ((Stage.lexer.report rules source).diagnostics.filter (·.position.line = number))
      ((Stage.parser.report rules source).diagnostics.filter (·.position.line = number))
      ((Definition.recover (Token.ofText source)).definitions.filter
        (·.position.line = number)) := by
  rw [Definition.exists_token_iff]
  by_cases some : ∃ numbered ∈ numberedStatements source, .ofNat numbered.2 = number
  · obtain ⟨numbered, member, rfl⟩ := some
    have closed := Definition.isClosed_of_mem (Definition.ofLine_mem_statements member)
    obtain ⟨unknown, known⟩ := Definition.ofResults_readLine closed
    obtain ⟨found, refused, read⟩ := filter_line_eq short member rules
    rw [found, refused, read]
    constructor
    · intro first others same
      obtain ⟨fault, more, shape, rfl, _⟩ := List.map_eq_cons_iff.1 same
      obtain ⟨one, none⟩ := unknown fault more shape
      exact ⟨by rw [one, List.map_singleton], none⟩
    · intro none _
      rcases known (List.map_eq_nil_iff.1 none) with
        ⟨definition, one, noFault⟩ | ⟨position, expected, text, one, noDefinition⟩
      · exact .inl ⟨definition, one, by rw [noFault, List.map_nil]⟩
      · exact .inr ⟨position, expected, text, by rw [one, List.map_singleton], noDefinition⟩
    · intro absent
      exact absurd ⟨numbered, member, rfl⟩ absent
  · obtain ⟨diagnostics, definitions⟩ := filter_line_eq_nil rules some
    rw [diagnostics .lexer nofun, diagnostics .parser nofun, definitions]
    exact ⟨nofun, fun _ hasToken => absurd hasToken some, fun _ => ⟨rfl, rfl, rfl⟩⟩

end Line

/-- The stages agree about what is wrong with a text of fewer than 2 ^ 32 - 1 characters. The faults in
the report of the validator are those of the parser, in front of all findings. Of the characters
outside the language the parser reports the first of each line that has any, and the line gives
nothing else. Every other line with tokens is read to one definition or has one fault of syntax. So a
text on which scanning reports an error has an error in the report of the parser, and the parser and
the validator report errors on the same texts. -/
theorem reports_agree_on_faults {source : String} (short : source.length < UInt32.size - 1)
    (rules : Lint.Rules) :
    let lexed := (Stage.lexer.report rules source).diagnostics
    let parsed := (Stage.parser.report rules source).diagnostics
    let defined := (Definition.recover (Token.ofText source)).definitions
    (∃ findings : List Lint.Finding,
      (Stage.validator.report rules source).diagnostics = parsed ++ findings.map .finding ∧
        ∀ diagnostic ∈ parsed, diagnostic.isFault) ∧
    (∀ diagnostic ∈ lexed, diagnostic.isUnknownCharacter) ∧
    (parsed.filter (·.isUnknownCharacter) =
      (List.range' 1 (Text.lines source).length).filterMap fun number =>
        lexed.find? (·.position.line = .ofNat number)) ∧
    (∀ number : UInt32,
      LineAgrees
        (∃ token ∈ Token.ofText source, token.kind.isEnd = false ∧ token.position.line = number)
        (lexed.filter (·.position.line = number)) (parsed.filter (·.position.line = number))
        (defined.filter (·.position.line = number))) ∧
    ((Stage.lexer.report rules source).hasErrors → (Stage.parser.report rules source).hasErrors) ∧
    (Stage.parser.report rules source).hasErrors =
      (Stage.validator.report rules source).hasErrors := by
  intro lexed parsed defined
  have lines := lineAgrees_filter_line short rules
  refine ⟨⟨_, rfl, ?_⟩, ?_, filter_isUnknownCharacter short rules, lines, ?_, ?_⟩
  · intro diagnostic given
    obtain ⟨fault, _, rfl⟩ := List.mem_map.1 given
    rfl
  · intro diagnostic given
    obtain ⟨fault, inTokens, rfl⟩ := List.mem_map.1 given
    obtain ⟨token, _, made⟩ := List.mem_filterMap.1 inTokens
    exact Fault.isUnknownCharacter_of_ofToken? made
  · have lexer : Stage.lexer ≠ .validator := nofun
    have parser : Stage.parser ≠ .validator := nofun
    rw [hasErrors_iff rules lexer, hasErrors_iff rules parser]
    intro some none
    obtain ⟨first, others, same⟩ := List.exists_cons_of_ne_nil some
    -- Whatever scanning finds first is refused on its line too.
    have found : (Stage.lexer.report rules source).diagnostics.filter
        (·.position.line = first.position.line) =
        first :: others.filter (·.position.line = first.position.line) := by
      rw [same]
      exact List.filter_cons_of_pos (decide_eq_true rfl)
    have refused := ((lines first.position.line).unknown first _ found).1
    rw [none] at refused
    cases refused
  · rw [hasErrors_validator]
    simp only [Stage.report, definitionLines, hasErrors]
    cases (Definition.recover (Token.ofText source)).faults with
    | nil => rfl
    | cons fault others => rfl

theorem reports_agree_on_four_lines :
    let source := "a = ) ? $\n\nb = (\nc = 1"
    let unknown (column : UInt32) (character : Char) : Diagnostic :=
      .fault (.unknownCharacter ⟨1, column⟩ character)
    source.length < UInt32.size - 1 ∧
      (Stage.lexer.report .standard source).diagnostics = [unknown 7 '?', unknown 9 '$'] ∧
      (Stage.parser.report .standard source).diagnostics.filter (·.position.line = 1) =
        [unknown 7 '?'] ∧
      (Stage.parser.report .standard source).diagnostics.filter (·.isUnknownCharacter) =
        [unknown 7 '?'] ∧
      (∃ position expected text,
        (Stage.parser.report .standard source).diagnostics.filter (·.position.line = 3) =
          [.fault (.unexpected position expected text)]) ∧
      (Stage.parser.report .standard source).hasErrors := by
  intro source unknown
  have short : source.length < UInt32.size - 1 := by decide +kernel
  have lexed : (Stage.lexer.report .standard source).diagnostics =
      [unknown 7 '?', unknown 9 '$'] := by decide +kernel
  obtain ⟨_, _, first, lines, errors, _⟩ := reports_agree_on_faults short .standard
  refine ⟨short, lexed, ?_, ?_, ?_, errors (by decide +kernel)⟩
  · exact ((lines 1).unknown (unknown 7 '?') [unknown 9 '$'] (by decide +kernel)).1
  · rw [first]
    decide +kernel
  · have hasToken : ∃ token ∈ Token.ofText source,
        token.kind.isEnd = false ∧ token.position.line = 3 := by decide +kernel
    rcases (lines 3).known (by decide +kernel) hasToken with
      ⟨_, _, none⟩ | ⟨position, expected, text, one, _⟩
    · exact absurd none (by decide +kernel)
    · exact ⟨position, expected, text, one⟩

end Report

end ShaderDefs
