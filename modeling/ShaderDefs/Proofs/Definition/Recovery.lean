import Mathlib.Data.List.Nodup
import ShaderDefs.Proofs.Definition.Correspondence
import ShaderDefs.Proofs.Definition.Declaration
import ShaderDefs.Proofs.Text.Lines
import ShaderDefs.Proofs.Token.Placement

/-! Going on after faults. Every line of a text that has content is read to one definition or to one
fault on that line, and no other line is read to anything. Reading that stops at the first fault is
the same reading, looked at up to there. -/

set_option autoImplicit false

namespace ShaderDefs

theorem Report.hasErrors_validator (rules : Lint.Rules) (source : String) :
    (Stage.validator.report rules source).hasErrors =
      !(Definition.recover (Token.ofText source)).faults.isEmpty := by
  have findings : ∀ found : List Lint.Finding,
      (found.map Diagnostic.finding).any (·.isFault) = false := fun found => by
    simp [Diagnostic.isFault]
  simp only [Stage.report, signatures, hasErrors, List.any_append, findings, Bool.or_false]
  cases (Definition.recover (Token.ofText source)).faults with
  | nil => rfl
  | cons fault others => rfl

namespace Definition

def numberedStatements (source : String) : List (List Char × Nat) :=
  ((Text.lines source).zipIdx 1).filter fun numbered =>
    !(Token.ofLine numbered.2 numbered.1).isEmpty

theorem statements_eq_map (source : String) :
    statements (Token.ofText source) =
      (numberedStatements source).map fun numbered => Token.ofLine numbered.2 numbered.1 := by
  rw [statements_ofText, List.filter_map]
  rfl

theorem ofLine_mem_statements {source : String} {numbered : List Char × Nat}
    (member : numbered ∈ numberedStatements source) :
    Token.ofLine numbered.2 numbered.1 ∈ statements (Token.ofText source) := by
  rw [statements_eq_map]
  exact List.mem_map_of_mem member

theorem mem_numberedStatements_iff {source : String} {characters : List Char} {number : Nat} :
    (characters, number) ∈ numberedStatements source ↔
      (1 ≤ number ∧ (Text.lines source)[number - 1]? = some characters) ∧
        Token.HasContent characters := by
  rw [numberedStatements, List.mem_filter, ← Token.ofLine_ne_nil_iff number,
    List.mk_mem_zipIdx_iff_le_and_getElem?_sub]
  simp

theorem numbers_of_numberedStatements (source : String) :
    ((numberedStatements source).map (·.2)).Pairwise (· < ·) ∧
      ∀ numbered ∈ numberedStatements source, numbered.2 ≤ (Text.lines source).length := by
  constructor
  · refine List.Pairwise.sublist (List.filter_sublist.map Prod.snd) ?_
    rw [List.zipIdx_map_snd]
    exact List.pairwise_lt_range' 1
  · rintro ⟨characters, number⟩ member
    obtain ⟨⟨_, found⟩, _⟩ := mem_numberedStatements_iff.1 member
    have low := (List.getElem?_eq_some_iff.1 found).1
    dsimp only
    omega

structure Header (line : List Token) (definition : Definition) (name : Token)
    (parameters : List Token) : Prop where
  named : name.kind = .identifier
  parametersNamed : ∀ parameter ∈ parameters, parameter.kind = .identifier
  shape : ∃ equals rest, equals.kind = .equals ∧ line = name :: (parameters ++ equals :: rest)
  name_eq : definition.name = name.text
  position_eq : definition.position = name.position
  parameters_eq : definition.parameters = parameters.map (·.text)
  parameterPositions_eq : definition.parameterPositions = parameters.map (·.position)

theorem exists_header_of_readLine {line : List Token} {definition : Definition}
    (spelled : ∀ token ∈ line, token.Spelled) (read : readLine line = .ok definition) :
    ∃ name parameters, Header line definition name parameters := by
  obtain ⟨tokens, rest, nesting, rfl, _, declares, _⟩ := declares_of_readLine spelled read
  cases declares with
  | @line name equals parameters tokens body nesting named parametersNamed equates derives =>
    exact ⟨name, parameters, {
      named
      parametersNamed
      shape := ⟨equals, tokens ++ rest, equates, by simp⟩
      name_eq := rfl
      position_eq := rfl
      parameters_eq := rfl
      parameterPositions_eq := rfl }⟩

theorem isClosed_of_mem {source : String} {line : List Token}
    (statement : line ∈ statements (Token.ofText source)) : IsClosed line := by
  have spelled := spelled_of_mem statement
  obtain ⟨body, finish, rfl, _, _, closes⟩ := isStatement_of_mem statement
  refine ⟨body, finish, rfl, ?_⟩
  simpa [Token.Spelled, closes] using spelled finish

theorem line_of_readLine {source : String} {characters : List Char} {number : Nat}
    (member : (characters, number) ∈ numberedStatements source) :
    (∀ definition, readLine (Token.ofLine number characters) = .ok definition →
      definition.position.line = .ofNat number) ∧
    ∀ fault, readLine (Token.ofLine number characters) = .error fault →
      fault.position.line = .ofNat number := by
  have statement : Token.ofLine number characters ∈ statements (Token.ofText source) :=
    ofLine_mem_statements member
  constructor
  · intro definition read
    obtain ⟨name, parameters, header⟩ := exists_header_of_readLine (spelled_of_mem statement) read
    obtain ⟨equals, rest, _, same⟩ := header.shape
    rw [header.position_eq]
    exact Token.line_of_mem_ofLine (by rw [same]; exact List.mem_cons_self)
  · intro fault read
    obtain ⟨token, inLine, names⟩ := exists_mem_of_readLine (isClosed_of_mem statement) read
    rw [← names.position_eq]
    exact Token.line_of_mem_ofLine inLine

/-- Where items have lines and their results stay on them, the definitions stand on the lines of the
items that can be read, and the faults on the lines of the others. -/
theorem lines_ofResults {Item : Type} {items : List Item} {result : Item → Except Fault Definition}
    {line : Item → UInt32}
    (own : ∀ item ∈ items,
      (∀ definition, result item = .ok definition → definition.position.line = line item) ∧
        ∀ fault, result item = .error fault → fault.position.line = line item) :
    (Recovered.ofResults (items.map result)).definitions.map (·.position.line) =
        (items.filter fun item => (result item).isOk).map line ∧
      (Recovered.ofResults (items.map result)).faults.map (·.position.line) =
        (items.filter fun item => !(result item).isOk).map line := by
  simp only [Recovered.ofResults]
  induction items with
  | nil => exact ⟨rfl, rfl⟩
  | cons item items ih =>
    obtain ⟨⟨onDefinition, onFault⟩, others⟩ := List.forall_mem_cons.1 own
    have more := ih others
    cases read : result item with
    | error fault => simpa [read, Except.isOk, Except.toBool, onFault fault read] using more
    | ok definition =>
      simpa [read, Except.isOk, Except.toBool, onDefinition definition read] using more

def isRead (numbered : List Char × Nat) : Bool :=
  (readLine (Token.ofLine numbered.2 numbered.1)).isOk

theorem lines_recover (source : String) :
    (recover (Token.ofText source)).definitions.map (·.position.line) =
        ((numberedStatements source).filter isRead).map (fun numbered => .ofNat numbered.2) ∧
      (recover (Token.ofText source)).faults.map (·.position.line) =
        ((numberedStatements source).filter (!isRead ·)).map fun numbered => .ofNat numbered.2 := by
  rw [recover, statements_eq_map, List.map_map]
  exact lines_ofResults fun numbered member => line_of_readLine member

/-- Reading up to the first fault is recovering, looked at up to there. -/
theorem readAll_eq (tokens : List Token) :
    readAll tokens =
      match (recover tokens).faults with
      | [] => .ok (recover tokens).definitions
      | fault :: _ => .error fault := by
  unfold readAll recover
  induction statements tokens with
  | nil => rfl
  | cons line rest ih =>
    rw [List.mapM_cons, ih, List.map_cons]
    generalize rest.map readLine = results
    cases readLine line with
    | error fault => rfl
    | ok definition =>
      have faults : (Recovered.ofResults (.ok definition :: results)).faults =
          (Recovered.ofResults results).faults := rfl
      rw [faults]
      cases (Recovered.ofResults results).faults with
      | nil => rfl
      | cons fault others => rfl

theorem readAll_eq_ok_iff {tokens : List Token} {definitions : List Definition} :
    readAll tokens = .ok definitions ↔
      (recover tokens).faults = [] ∧ (recover tokens).definitions = definitions := by
  rw [readAll_eq]
  cases (recover tokens).faults with
  | nil => simp
  | cons fault others => simp

theorem readAll_eq_error_iff {tokens : List Token} {fault : Fault} :
    readAll tokens = .error fault ↔ (recover tokens).faults.head? = some fault := by
  rw [readAll_eq]
  cases (recover tokens).faults with
  | nil => simp
  | cons first others => simp

theorem number_lt_size {source : String} (short : source.length < UInt32.size - 1)
    {numbered : List Char × Nat} (member : numbered ∈ numberedStatements source) :
    numbered.2 < UInt32.size :=
  Text.number_lt_size_of_mem short (List.mem_filter.1 member).1

theorem eq_of_ofNat_eq {source : String} (short : source.length < UInt32.size - 1)
    {first second : List Char × Nat} (inFirst : first ∈ numberedStatements source)
    (inSecond : second ∈ numberedStatements source)
    (same : UInt32.ofNat first.2 = .ofNat second.2) : first = second :=
  Text.eq_of_ofNat_eq short (List.mem_filter.1 inFirst).1 (List.mem_filter.1 inSecond).1 same

theorem pairwise_lines {source : String} (short : source.length < UInt32.size - 1)
    (keep : List Char × Nat → Bool) :
    (((numberedStatements source).filter keep).map fun numbered =>
      UInt32.ofNat numbered.2).Pairwise (· < ·) := by
  have increasing := (numbers_of_numberedStatements source).1
  rw [List.pairwise_map] at increasing ⊢
  refine (increasing.imp_of_mem ?_).filter keep
  intro first second inFirst inSecond less
  have fits := number_lt_size short inFirst
  exact (UInt32.ofNat_lt_iff_lt fits (number_lt_size short inSecond)).2 less

theorem pairwise_before_of_mem {source : String} (short : source.length < UInt32.size - 1)
    {line : List Token} (statement : line ∈ statements (Token.ofText source)) :
    line.Pairwise fun first second => first.position.Before second.position := by
  rw [statements_eq_map] at statement
  obtain ⟨⟨characters, number⟩, numbered, rfl⟩ := List.mem_map.1 statement
  obtain ⟨⟨_, found⟩, _⟩ := mem_numberedStatements_iff.1 numbered
  have low := Text.length_le_of_mem_lines (List.mem_of_getElem? found)
  have fits : characters.length + 1 < UInt32.size := by omega
  exact (Token.pairwise_ofLine fits).imp And.left

theorem nodup_numberedStatements (source : String) : (numberedStatements source).Nodup :=
  List.Nodup.of_map Prod.snd ((numbers_of_numberedStatements source).1.imp Nat.ne_of_lt)

theorem flatMap_eq_of_forall_ne {Item Value : Type} {items : List Item} {item : Item}
    {values : Item → List Value} (nodup : items.Nodup) (member : item ∈ items)
    (others : ∀ other ∈ items, other ≠ item → values other = []) :
    items.flatMap values = values item := by
  obtain ⟨front, back, rfl⟩ := List.append_of_mem member
  obtain ⟨absent, _⟩ := List.nodup_cons.1 (List.nodup_middle.1 nodup)
  have empty : ∀ other ∈ front ++ back, values other = [] := by
    intro other inside
    refine others other ?_ fun same => absent (same ▸ inside)
    rw [List.mem_append, List.mem_cons]
    exact (List.mem_append.1 inside).imp_right .inr
  obtain ⟨inFront, inBack⟩ := List.forall_mem_append.1 empty
  rw [List.flatMap_append, List.flatMap_cons, List.flatMap_eq_nil_iff.2 inFront,
    List.flatMap_eq_nil_iff.2 inBack, List.nil_append, List.append_nil]

/-- Where what a line gives is kept, and of what other lines give only what is on the same line, just
what the line gives is kept in a short text. -/
theorem filter_flatMap_numberedStatements {source : String} (short : source.length < UInt32.size - 1)
    {Value : Type} {given : List Char × Nat → List Value} {keep : Value → Bool}
    {numbered : List Char × Nat} (member : numbered ∈ numberedStatements source)
    (here : ∀ value ∈ given numbered, keep value)
    (there : ∀ other ∈ numberedStatements source, ∀ value ∈ given other, keep value →
      UInt32.ofNat other.2 = .ofNat numbered.2) :
    ((numberedStatements source).flatMap given).filter keep = given numbered := by
  rw [List.filter_flatMap]
  refine (flatMap_eq_of_forall_ne (nodup_numberedStatements source) member ?_).trans ?_
  · intro other inLines otherwise
    rw [List.filter_eq_nil_iff]
    intro value givenThere kept
    -- Line numbers of a short text do not wrap, so another line has another number.
    exact otherwise (eq_of_ofNat_eq short inLines member (there other inLines value givenThere kept))
  · exact List.filter_eq_self.2 here

theorem mem_map_filter_or {Item Value : Type} {items : List Item} {keep : Item → Bool}
    {key : Item → Value} {value : Value} :
    (value ∈ (items.filter keep).map key ∨ value ∈ (items.filter (!keep ·)).map key) ↔
      ∃ item ∈ items, key item = value := by
  simp only [List.mem_map, List.mem_filter, Bool.not_eq_true', and_assoc]
  constructor
  · rintro (⟨item, member, _, same⟩ | ⟨item, member, _, same⟩)
    · exact ⟨item, member, same⟩
    · exact ⟨item, member, same⟩
  · rintro ⟨item, member, same⟩
    cases kept : keep item with
    | true => exact .inl ⟨item, member, kept, same⟩
    | false => exact .inr ⟨item, member, kept, same⟩

/-- In a text of fewer than 2 ^ 32 - 1 characters the definitions and the faults that reading recovers
stand on different lines, each in the order of lines, and together on exactly the lines with content.
Whatever the tokens, reading them strictly gives all definitions if there is no fault, and otherwise
the first fault. So a text is validated strictly exactly if its report has no errors, and then to what
the report says. -/
theorem recover_covers_lines_and_agrees_with_readAll :
    (∀ source : String, source.length < UInt32.size - 1 →
      let recovered := recover (Token.ofText source)
      let read := recovered.definitions.map (·.position.line)
      let refused := recovered.faults.map (·.position.line)
      read.Pairwise (· < ·) ∧ refused.Pairwise (· < ·) ∧ read.Disjoint refused ∧
        ∀ number : UInt32, number ∈ read ∨ number ∈ refused ↔
          ∃ index characters, (Text.lines source)[index]? = some characters ∧
            number.toNat = index + 1 ∧ Token.HasContent characters) ∧
    (∀ tokens : List Token,
      (∀ definitions, readAll tokens = .ok definitions ↔
        (recover tokens).faults = [] ∧ (recover tokens).definitions = definitions) ∧
      ∀ fault, readAll tokens = .error fault ↔ (recover tokens).faults.head? = some fault) ∧
    ∀ (rules : Lint.Rules) (source : String),
      ((∃ validation, Validation.ofText rules source = .ok validation) ↔
        (Stage.validator.report rules source).hasErrors = false) ∧
      ∀ validation, Validation.ofText rules source = .ok validation →
        (Stage.validator.report rules source).program = some validation.program ∧
        (Stage.validator.report rules source).diagnostics =
          validation.findings.map .finding := by
  refine ⟨?_, fun tokens => ⟨fun _ => readAll_eq_ok_iff, fun _ => readAll_eq_error_iff⟩, ?_⟩
  · intro source short
    obtain ⟨definitions, faults⟩ := lines_recover source
    dsimp only
    rw [definitions, faults]
    refine ⟨pairwise_lines short _, pairwise_lines short _, ?_, ?_⟩
    · intro number inRead inRefused
      obtain ⟨first, inFirst, rfl⟩ := List.mem_map.1 inRead
      obtain ⟨second, inSecond, same⟩ := List.mem_map.1 inRefused
      obtain ⟨inFirst, read⟩ := List.mem_filter.1 inFirst
      obtain ⟨inSecond, refused⟩ := List.mem_filter.1 inSecond
      rw [eq_of_ofNat_eq short inSecond inFirst same, read] at refused
      cases refused
    · intro number
      rw [mem_map_filter_or]
      constructor
      · rintro ⟨⟨characters, line⟩, member, rfl⟩
        have fits := number_lt_size short member
        obtain ⟨⟨first, found⟩, content⟩ := mem_numberedStatements_iff.1 member
        refine ⟨line - 1, characters, found, ?_, content⟩
        rw [UInt32.toNat_ofNat_of_lt' fits, Nat.sub_add_cancel first]
      · rintro ⟨index, characters, found, same, content⟩
        refine ⟨(characters, index + 1), mem_numberedStatements_iff.2 ⟨⟨?_, found⟩, content⟩, ?_⟩
        · exact Nat.succ_pos index
        · rw [← same, UInt32.ofNat_toNat]
  · intro rules source
    rw [Report.hasErrors_validator]
    have strict := readAll_eq (Token.ofText source)
    unfold Validation.ofText
    rw [strict]
    cases faults : (recover (Token.ofText source)).faults with
    | nil =>
      refine ⟨iff_of_true ⟨_, rfl⟩ rfl, ?_⟩
      rintro _ ⟨⟩
      simp [Stage.report, Report.signatures, faults, Validation.ofDefinitions]
    | cons fault others =>
      exact ⟨iff_of_false (fun ⟨_, accepted⟩ => nomatch accepted) (by simp), nofun⟩

theorem recover_covers_five_lines :
    let source := "a = 1\n\n # b = 2\nc = ?\n d = 3"
    let recovered := recover (Token.ofText source)
    source.length < UInt32.size - 1 ∧
      recovered.definitions.map (·.position.line) = [1, 5] ∧
      recovered.faults.map (·.position.line) = [4] ∧
      (∃ index characters, (Text.lines source)[index]? = some characters ∧
        (4 : UInt32).toNat = index + 1 ∧ Token.HasContent characters) ∧
      ¬∃ index characters, (Text.lines source)[index]? = some characters ∧
        (3 : UInt32).toNat = index + 1 ∧ Token.HasContent characters := by
  intro source recovered
  have short : source.length < UInt32.size - 1 := by decide +kernel
  have read : recovered.definitions.map (·.position.line) = [1, 5] := by decide +kernel
  have refused : recovered.faults.map (·.position.line) = [4] := by decide +kernel
  obtain ⟨_, _, _, lines⟩ := recover_covers_lines_and_agrees_with_readAll.1 source short
  refine ⟨short, read, refused, (lines 4).1 (.inr ?_), fun content => ?_⟩
  · exact refused ▸ List.mem_cons_self
  · have none := (lines 3).2 content
    rw [read, refused] at none
    exact absurd none (by decide)

end Definition

end ShaderDefs
