import ShaderDefs.Proofs.Definition.Body
import ShaderDefs.Proofs.Report.Statements

/-! Reports of texts put together. Each line is read on its own, so if the first text stops where a
line begins, the report of the whole is the report of the first and then that of the second, moved
down by the lines of the first. -/

set_option autoImplicit false

namespace ShaderDefs

open Definition (statements)

namespace Definition

def below (count : Nat) (lines : List (List Token)) : List (List Token) :=
  lines.map fun line => line.map (·.relocate (·.down count))

theorem below_below (first second : Nat) (lines : List (List Token)) :
    below second (below first lines) = below (first + second) lines := by
  simp [below, Token.relocate, Position.down, UInt32.add_assoc, UInt32.ofNat_add]

theorem below_statements_ofList {characters : List Char} (oneLine : '\n' ∉ characters) (count : Nat) :
    below count (statements (Token.ofText (.ofList characters))) =
      [Token.ofLine (count + 1) characters].filter (!·.isEmpty) := by
  have alone : Text.lines (.ofList characters) = [characters] := by
    rw [Text.lines, String.toList_ofList]
    exact List.splitOn_eq_singleton oneLine
  rw [statements_ofText, alone, List.zipIdx_singleton, List.map_singleton, Nat.add_comm count,
    Token.ofLine_down]
  cases Token.ofLine 1 characters with
  | nil => rfl
  | cons token rest => rfl

theorem statements_ofList_nil : statements (Token.ofText (.ofList [])) = [] := by
  rw [statements_ofText]
  simp [Text.lines, Token.ofLine, Token.scanLine_nil, Token.closeLine]

theorem statements_eq_flatMap (source : String) :
    statements (Token.ofText source) =
      (Text.lines source).zipIdx.flatMap fun numbered =>
        below numbered.2 (statements (Token.ofText (.ofList numbered.1))) := by
  rw [statements_ofText, List.zipIdx_succ, List.map_map, List.map_eq_flatMap, List.filter_flatMap]
  refine List.flatMap_congr fun numbered member => ?_
  have inLines := List.fst_mem_of_mem_zipIdx member
  rw [below_statements_ofList (Text.notMem_of_mem_lines inLines)]
  rfl

theorem statements_append {first : String} (closed : Text.IsClosed first) (second : String) :
    statements (Token.ofText (first ++ second)) =
      statements (Token.ofText first) ++
        below (first.toList.count '\n') (statements (Token.ofText second)) := by
  obtain ⟨whole, lines, more⟩ := Text.exists_lines_append closed
  have count := Text.length_lines first
  rw [lines, List.length_append, List.length_singleton, Nat.add_right_cancel_iff] at count
  -- The last line of the first text is empty and goes on as the first line of the second.
  have front : statements (Token.ofText first) = whole.zipIdx.flatMap fun numbered =>
      below numbered.2 (statements (Token.ofText (.ofList numbered.1))) := by
    rw [statements_eq_flatMap, lines, List.zipIdx_append, List.flatMap_append,
      List.zipIdx_singleton, List.flatMap_singleton, statements_ofList_nil]
    exact List.append_nil _
  rw [statements_eq_flatMap (first ++ second), more, List.zipIdx_append, List.flatMap_append, ← front,
    ← count, statements_eq_flatMap second, below, List.map_flatMap, Nat.zero_add,
    List.zipIdx_eq_map_add, List.flatMap_map]
  congr 2
  funext numbered
  change below (whole.length + numbered.2) _ = below whole.length (below numbered.2 _)
  rw [below_below, Nat.add_comm]

end Definition

namespace Report

variable (rules : Lint.Rules)

theorem text_ofStatements_append (lines more : List (List Token)) (stage : Stage) :
    (ofStatements rules (lines ++ more) stage).text =
      (ofStatements rules lines stage).text ++ (ofStatements rules more stage).text := by
  cases stage with
  | lexer => simp [ofStatements]
  | parser => simp [ofStatements, Definition.Recovered.ofResults]
  | validator =>
    simp [ofStatements, Definition.Recovered.ofResults, Validation.ofDefinitions,
      Program.ofDefinitions, Program.describe]

/-- Findings are about all definitions together, so the last stage is left out. -/
theorem diagnostics_ofStatements_append (lines more : List (List Token)) {stage : Stage}
    (early : stage ≠ .validator) :
    (ofStatements rules (lines ++ more) stage).diagnostics =
      (ofStatements rules lines stage).diagnostics ++
        (ofStatements rules more stage).diagnostics := by
  cases stage with
  | lexer => simp [ofStatements]
  | parser => simp [ofStatements, Definition.Recovered.ofResults]
  | validator => exact absurd rfl early

section Items

variable {Item : Type} (items : List Item) (lines : Item → List (List Token))

theorem text_ofStatements_flatMap (stage : Stage) :
    (ofStatements rules (items.flatMap lines) stage).text =
      String.join (items.map fun item => (ofStatements rules (lines item) stage).text) := by
  induction items with
  | nil => cases stage <;> rfl
  | cons item items ih =>
    rw [List.flatMap_cons, text_ofStatements_append, ih, List.map_cons, String.join_cons]

theorem diagnostics_ofStatements_flatMap {stage : Stage} (early : stage ≠ .validator) :
    (ofStatements rules (items.flatMap lines) stage).diagnostics =
      items.flatMap fun item => (ofStatements rules (lines item) stage).diagnostics := by
  induction items with
  | nil =>
    cases stage with
    | lexer => rfl
    | parser => rfl
    | validator => exact absurd rfl early
  | cons item items ih =>
    rw [List.flatMap_cons, diagnostics_ofStatements_append rules _ _ early, ih, List.flatMap_cons]

end Items

theorem ofStatements_below (source : String) (count : Nat) (stage : Stage) :
    ofStatements rules (Definition.below count (statements (Token.ofText source))) stage =
      (stage.report rules source).relocate (·.down count) := by
  rw [Definition.below, ofStatements_relocate, report_eq_ofStatements]
  exact fun line member => Definition.isClosed_of_mem member

section Append

variable {first : String} (closed : Text.IsClosed first) (second : String)
include closed

theorem text_report_append (stage : Stage) :
    (stage.report rules (first ++ second)).text =
      (stage.report rules first).text ++ (stage.report rules second).text := by
  rw [report_eq_ofStatements, Definition.statements_append closed, text_ofStatements_append,
    ofStatements_below, ← report_eq_ofStatements]
  rfl

theorem diagnostics_report_append {stage : Stage} (early : stage ≠ .validator) :
    (stage.report rules (first ++ second)).diagnostics =
      (stage.report rules first).diagnostics ++
        (stage.report rules second).diagnostics.map
          (·.relocate (·.down (first.toList.count '\n'))) := by
  rw [report_eq_ofStatements, Definition.statements_append closed,
    diagnostics_ofStatements_append rules _ _ early, ofStatements_below, ← report_eq_ofStatements]
  rfl

theorem definitions_recover_append :
    (Definition.recover (Token.ofText (first ++ second))).definitions =
      (Definition.recover (Token.ofText first)).definitions ++
        (Definition.recover (Token.ofText second)).definitions.map
          (·.relocate (·.down (first.toList.count '\n'))) := by
  have each : ∀ line ∈ statements (Token.ofText second), Definition.IsClosed line :=
    fun line member => Definition.isClosed_of_mem member
  rw [Definition.recover, Definition.statements_append closed, Definition.below, List.map_append,
    Definition.Recovered.ofResults, List.filterMap_append]
  exact congrArg _ (Definition.ofResults_relocate each).1

theorem ofDefinitions_recover_append :
    Program.ofDefinitions (Definition.recover (Token.ofText (first ++ second))).definitions =
      ⟨(Program.ofDefinitions (Definition.recover (Token.ofText first)).definitions).functions ++
        (Program.ofDefinitions (Definition.recover (Token.ofText second)).definitions).functions.map
          (·.relocate (·.down (first.toList.count '\n')))⟩ := by
  rw [definitions_recover_append closed, Program.ofDefinitions, List.map_append]
  exact congrArg (fun program : Program => Program.mk (_ ++ program.functions))
    (Program.ofDefinitions_relocate _)

end Append

section Lines

variable (source : String)

theorem text_report_lines (stage : Stage) :
    (stage.report rules source).text =
      String.join ((Text.lines source).map fun line => (stage.report rules (.ofList line)).text) := by
  rw [report_eq_ofStatements, Definition.statements_eq_flatMap, text_ofStatements_flatMap]
  simp only [ofStatements_below]
  -- A text does not depend on the number of its line.
  conv_rhs => rw [← List.zipIdx_map_fst 0 (Text.lines source), List.map_map]
  rfl

theorem diagnostics_report_lines {stage : Stage} (early : stage ≠ .validator) :
    (stage.report rules source).diagnostics =
      (Text.lines source).zipIdx.flatMap fun numbered =>
        (stage.report rules (.ofList numbered.1)).diagnostics.map
          (·.relocate (·.down numbered.2)) := by
  rw [report_eq_ofStatements, Definition.statements_eq_flatMap,
    diagnostics_ofStatements_flatMap rules _ _ early]
  simp only [ofStatements_below]
  rfl

end Lines

theorem diagnostics_report_statements (source : String) {stage : Stage} (early : stage ≠ .validator) :
    (stage.report rules source).diagnostics =
      (Definition.numberedStatements source).flatMap fun numbered =>
        (ofStatements rules [Token.ofLine numbered.2 numbered.1] stage).diagnostics := by
  rw [report_eq_ofStatements, Definition.statements_eq_map, List.map_eq_flatMap,
    diagnostics_ofStatements_flatMap rules _ _ early]

theorem line_of_mem_diagnostics {source : String} {stage : Stage} (early : stage ≠ .validator)
    {numbered : List Char × Nat} (member : numbered ∈ Definition.numberedStatements source)
    {diagnostic : Diagnostic}
    (given : diagnostic ∈
      (ofStatements rules [Token.ofLine numbered.2 numbered.1] stage).diagnostics) :
    diagnostic.position.line = .ofNat numbered.2 := by
  cases stage with
  | lexer =>
    obtain ⟨fault, inLine, rfl⟩ := List.mem_map.1 given
    rw [List.flatMap_singleton] at inLine
    obtain ⟨token, inLine, made⟩ := List.mem_filterMap.1 inLine
    have place : token.position = fault.position := (Fault.names_of_ofToken? made).position_eq
    exact (congrArg Position.line place).symm.trans (Token.line_of_mem_ofLine inLine)
  | parser =>
    obtain ⟨fault, inLine, rfl⟩ := List.mem_map.1 given
    have read : Definition.readLine (Token.ofLine numbered.2 numbered.1) = .error fault := by
      cases read : Definition.readLine (Token.ofLine numbered.2 numbered.1) with
      | ok definition => simp [read, Definition.Recovered.ofResults] at inLine
      | error other => simpa [read, Definition.Recovered.ofResults, eq_comm] using inLine
    exact (Definition.line_of_readLine member).2 fault read
  | validator => exact absurd rfl early

theorem exists_number_of_mem_diagnostics {source : String} {stage : Stage}
    (early : stage ≠ .validator) {diagnostic : Diagnostic}
    (member : diagnostic ∈ (stage.report rules source).diagnostics) :
    ∃ numbered ∈ Definition.numberedStatements source,
      diagnostic.position.line = .ofNat numbered.2 := by
  rw [diagnostics_report_statements rules source early] at member
  obtain ⟨numbered, inNumbered, given⟩ := List.mem_flatMap.1 member
  exact ⟨numbered, inNumbered, line_of_mem_diagnostics rules early inNumbered given⟩

theorem exists_number_of_mem_recover {source : String} {definition : Definition}
    (member : definition ∈ (Definition.recover (Token.ofText source)).definitions) :
    ∃ numbered ∈ Definition.numberedStatements source,
      definition.position.line = .ofNat numbered.2 := by
  obtain ⟨line, inLines, read⟩ := Definition.mem_recover_iff.1 member
  rw [Definition.statements_eq_map] at inLines
  obtain ⟨numbered, inNumbered, rfl⟩ := List.mem_map.1 inLines
  exact ⟨numbered, inNumbered, (Definition.line_of_readLine inNumbered).1 definition read⟩

/-- Below a closed text a short text still has room, so line numbers only grow. -/
theorem toNat_line_below {first second : String} (closed : Text.IsClosed first)
    (short : (first ++ second).length < UInt32.size - 1) {position : Position}
    (own : ∃ numbered ∈ Definition.numberedStatements second,
      position.line = .ofNat numbered.2) :
    (position.down (first.toList.count '\n')).line.toNat =
      position.line.toNat + first.toList.count '\n' := by
  obtain ⟨numbered, member, same⟩ := own
  obtain ⟨whole, lines, more⟩ := Text.exists_lines_append closed
  have few := Text.length_lines_le (first ++ second)
  have low := (Definition.numbers_of_numberedStatements second).2 numbered member
  have count := Text.length_lines first
  rw [more, List.length_append] at few
  rw [lines, List.length_append, List.length_singleton] at count
  have fits : numbered.2 + first.toList.count '\n' < UInt32.size := by omega
  refine Position.toNat_line_down ?_
  rwa [same, UInt32.toNat_ofNat_of_lt' (Nat.lt_of_le_of_lt (Nat.le_add_right _ _) fits)]

/-- Lines are independent. If the first of two texts stops where a line begins, then what the stages
report of the whole is what they report of the first and then what they report of the second, moved
down by the line feeds of the first, and in fewer than 2 ^ 32 - 1 characters no line number wraps.
Findings are left out, since they compare lines. So texts and faults are those of the lines, each
alone, and what is reported of one line has no part in what is reported of another. -/
theorem report_append_and_report_lines :
    (∀ first second : String, Text.IsClosed first → (first ++ second).length < UInt32.size - 1 →
      let count := first.toList.count '\n'
      let below (position : Position) := position.down count
      (∀ stage : Stage,
        (stage.report rules (first ++ second)).text =
          (stage.report rules first).text ++ (stage.report rules second).text) ∧
      (∀ stage : Stage, stage ≠ .validator →
        (stage.report rules (first ++ second)).diagnostics =
          (stage.report rules first).diagnostics ++
            (stage.report rules second).diagnostics.map (·.relocate below) ∧
        ∀ diagnostic ∈ (stage.report rules second).diagnostics,
          (diagnostic.relocate below).position.line.toNat =
              diagnostic.position.line.toNat + count ∧
            (diagnostic.relocate below).position.column = diagnostic.position.column) ∧
      ∃ front back : Program,
        (Stage.validator.report rules first).program = some front ∧
        (Stage.validator.report rules second).program = some back ∧
        (Stage.validator.report rules (first ++ second)).program =
          some ⟨front.functions ++ back.functions.map (·.relocate below)⟩ ∧
        ∀ function ∈ back.functions,
          (function.relocate below).position.line.toNat =
              function.position.line.toNat + count ∧
            (function.relocate below).position.column = function.position.column) ∧
    ∀ (source : String) (stage : Stage),
      (stage.report rules source).text =
        String.join ((Text.lines source).map fun line =>
          (stage.report rules (.ofList line)).text) ∧
      (stage ≠ .validator →
        (stage.report rules source).diagnostics =
          (Text.lines source).zipIdx.flatMap fun numbered =>
            (stage.report rules (.ofList numbered.1)).diagnostics.map
              (·.relocate (·.down numbered.2))) := by
  refine ⟨fun first second closed short =>
    ⟨text_report_append rules closed second, fun stage early => ⟨?_, ?_⟩, ?_⟩,
    fun source stage => ⟨text_report_lines rules source stage, diagnostics_report_lines rules source⟩⟩
  · exact diagnostics_report_append rules closed second early
  · intro diagnostic member
    rw [Diagnostic.position_relocate]
    exact ⟨toNat_line_below closed short (exists_number_of_mem_diagnostics rules early member), rfl⟩
  · refine ⟨_, _, rfl, rfl, congrArg some (ofDefinitions_recover_append closed second), ?_⟩
    intro function member
    obtain ⟨definition, inRecovered, rfl⟩ := List.mem_map.1 member
    exact ⟨toNat_line_below closed short (exists_number_of_mem_recover inRecovered), rfl⟩

theorem report_append_of_two_lines_and_one :
    let first := "a = 1\n? = 2\n"
    let second := "b = $"
    Text.IsClosed first ∧ (first ++ second).length < UInt32.size - 1 ∧ Stage.parser ≠ .validator ∧
      (Stage.parser.report .standard (first ++ second)).text = " ( = a 1 )\n" ∧
      (Stage.parser.report .standard (first ++ second)).diagnostics =
        [.fault (.unknownCharacter ⟨2, 1⟩ '?'), .fault (.unknownCharacter ⟨3, 5⟩ '$')] ∧
      (Stage.parser.report .standard second).diagnostics =
        (Text.lines second).zipIdx.flatMap fun numbered =>
          (Stage.parser.report .standard (.ofList numbered.1)).diagnostics.map
            (·.relocate (·.down numbered.2)) := by
  intro first second
  have closed : Text.IsClosed first := .inr (by decide +kernel)
  have short : (first ++ second).length < UInt32.size - 1 := by decide +kernel
  have early : Stage.parser ≠ .validator := by decide
  obtain ⟨appends, lines⟩ := report_append_and_report_lines .standard
  obtain ⟨text, diagnostics, _⟩ := appends first second closed short
  refine ⟨closed, short, early, ?_, ?_, (lines second .parser).2 early⟩
  · rw [text .parser]
    decide +kernel
  · rw [(diagnostics .parser early).1]
    decide +kernel

end Report

end ShaderDefs
