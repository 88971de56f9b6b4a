import ShaderDefs.Proofs.Lint.Excusing
import ShaderDefs.Validation

/-! What the rules decide. Each of them is about findings of one kind, and changing it leaves the program
and all other findings as they are. What makes more functions known takes away just the findings on
these functions. -/

set_option autoImplicit false

namespace ShaderDefs

namespace Lint

inductive Rules.Addition where
  | one (name : String)
  | all (names : List String)

namespace Rules

def Addition.names : Addition → List String
  | .one name => [name]
  | .all names => names

def add (rules : Rules) : Addition → Rules
  | .one name => rules.withBuiltin name
  | .all names => rules.withBuiltins names

theorem foldl_add (rules : Rules) (additions : List Addition) :
    additions.foldl add rules = rules.withBuiltins (additions.flatMap Addition.names) := by
  induction additions generalizing rules with
  | nil => simp [withBuiltins]
  | cons addition rest ih =>
    have step : rules.add addition = rules.withBuiltins addition.names := by cases addition <;> rfl
    rw [List.foldl_cons, ih, step, List.flatMap_cons]
    simp only [withBuiltins, List.append_assoc]

theorem isBuiltin_withBuiltins (rules : Rules) (names : List String) (callee : String) :
    (rules.withBuiltins names).isBuiltin callee = (rules.isBuiltin callee || decide (callee ∈ names)) := by
  simp only [isBuiltin, withBuiltins, List.contains_eq_mem, List.mem_append, Bool.decide_or]
  ac_rfl

theorem isBuiltin_append_prefixes (rules : Rules) (starts : List String) (callee : String) :
    { rules with builtinPrefixes := rules.builtinPrefixes ++ starts }.isBuiltin callee =
      (rules.isBuiltin callee || decide (∃ start ∈ starts, start.toList <+: callee.toList)) := by
  have begins : decide (∃ start ∈ starts, start.toList <+: callee.toList) =
      starts.any fun start => start.toList.isPrefixOf callee.toList := by
    rw [Bool.eq_iff_iff]
    simp
  rw [begins]
  simp only [isBuiltin, List.any_append, Bool.or_assoc]

end Rules

variable {rules other : Rules} {names earlier : List String} {definition : Definition}

theorem excuses_of_isBuiltin {test : String → Bool} (outputs : other.outputNames = rules.outputNames)
    (asked : other.warnUnresolved = rules.warnUnresolved)
    (known : ∀ callee, other.isBuiltin callee = (rules.isBuiltin callee || test callee)) :
    Excuses test rules other names names where
  outputs := outputs
  reported definition callee := by
    simp only [isReported, isResolved, asked, known, Bool.not_or]
    ac_rfl

theorem excuses_withWarnUnresolved_false :
    Excuses (fun _ => true) rules (rules.withWarnUnresolved false) names names where
  outputs := rfl
  reported _ _ := rfl

theorem excuses_withBuiltins {first second : List String}
    (same : ∀ name, name ∈ first ↔ name ∈ second) :
    Excuses (fun _ => false) (rules.withBuiltins second) (rules.withBuiltins first) names names := by
  refine excuses_of_isBuiltin rfl rfl fun callee => ?_
  rw [Rules.isBuiltin_withBuiltins, Rules.isBuiltin_withBuiltins, Bool.or_false,
    decide_eq_decide.2 (same callee)]

/-- What is kept of a run is the same under other rules where it is the same of the outputs and of the
callees, which are the only checks that know the rules. -/
theorem filter_checkFrom_of_rules {test : Finding → Bool}
    (onOutput : ∀ definition, (checkOutput other definition).filter test =
      (checkOutput rules definition).filter test)
    (onCallees : ∀ definition, (checkCallees other names definition).filter test =
      (checkCallees rules names definition).filter test)
    (earlier : List String) (definitions : List Definition) :
    (checkFrom other names earlier definitions).filter test =
      (checkFrom rules names earlier definitions).filter test := by
  apply filter_checkFrom_eq_filter
  intro earlier definition
  simp only [checkOne, List.filter_append, onOutput, onCallees]

theorem filter_eq_nil_of_code (test : String → Bool) {code : String} {findings : List Finding}
    (all : ∀ finding ∈ findings, finding.code = code) (drops : test code = false) :
    findings.filter (fun finding => test finding.code) = [] := by
  rw [List.filter_eq_nil_iff]
  intro finding member
  rw [all finding member, drops]
  exact Bool.false_ne_true

def unruledCodes : List String :=
  ["duplicate_definition", "parameter_shadows_function", "duplicate_parameter"]

theorem filter_checkFrom_unruled (rules other : Rules) (names earlier : List String)
    (definitions : List Definition) :
    (checkFrom other names earlier definitions).filter (·.code ∈ unruledCodes) =
      (checkFrom rules names earlier definitions).filter (·.code ∈ unruledCodes) := by
  have noOutput (rules : Rules) (definition : Definition) :
      (checkOutput rules definition).filter (·.code ∈ unruledCodes) = [] :=
    filter_eq_nil_of_code (· ∈ unruledCodes) (fun _ => code_of_mem_checkOutput) (by decide)
  have noCallee (rules : Rules) (definition : Definition) :
      (checkCallees rules names definition).filter (·.code ∈ unruledCodes) = [] :=
    filter_eq_nil_of_code (· ∈ unruledCodes) (fun _ => code_of_mem_checkCallees) (by decide)
  apply filter_checkFrom_of_rules
  · intro definition
    rw [noOutput, noOutput]
  · intro definition
    rw [noCallee, noCallee]

theorem filter_checkFrom_withOutputs (rules : Rules) (outputs names earlier : List String)
    (definitions : List Definition) :
    (checkFrom { rules with outputNames := outputs } names earlier definitions).filter
        (·.code ≠ "output_with_parameters") =
      (checkFrom rules names earlier definitions).filter (·.code ≠ "output_with_parameters") := by
  have noOutput (rules : Rules) (definition : Definition) :
      (checkOutput rules definition).filter (·.code ≠ "output_with_parameters") = [] :=
    filter_eq_nil_of_code (· ≠ "output_with_parameters") (fun _ => code_of_mem_checkOutput) (by decide)
  apply filter_checkFrom_of_rules
  · intro definition
    rw [noOutput, noOutput]
  · -- The outputs do not say which functions are known.
    exact fun _ => rfl

end Lint

open Lint (Rules)

/-- The rules decide nothing about the program and nothing about repeated names and parameters. Knowing
more functions, by name or by prefix, deletes the findings on these functions, and no longer asking for
applied names to be known deletes all findings on them; the others stay in their order. The outputs decide
about outputs with parameters only. It does not matter in which order and how often a name is made
known. -/
theorem Validation.ofDefinitions_of_rules (rules : Rules) (definitions : List Definition) :
    let findings (rules : Rules) := (ofDefinitions rules definitions).findings
    (∀ other, (ofDefinitions other definitions).program = (ofDefinitions rules definitions).program ∧
      (findings other).filter (·.code ∈ Lint.unruledCodes) =
        (findings rules).filter (·.code ∈ Lint.unruledCodes)) ∧
    (∀ names, findings (rules.withBuiltins names) =
      (findings rules).filter (!·.issue.isUnresolvedAmong fun callee => callee ∈ names)) ∧
    (∀ starts, findings { rules with builtinPrefixes := rules.builtinPrefixes ++ starts } =
      (findings rules).filter (!·.issue.isUnresolvedAmong fun callee =>
        ∃ start ∈ starts, start.toList <+: callee.toList)) ∧
    findings (rules.withWarnUnresolved false) =
      (findings rules).filter (·.code ≠ "unresolved_callee") ∧
    (∀ outputs, (findings { rules with outputNames := outputs }).filter
        (·.code ≠ "output_with_parameters") =
      (findings rules).filter (·.code ≠ "output_with_parameters")) ∧
    ∀ first second : List Rules.Addition,
      (∀ name, name ∈ first.flatMap (·.names) ↔ name ∈ second.flatMap (·.names)) →
      ofDefinitions (first.foldl Rules.add rules) definitions =
        ofDefinitions (second.foldl Rules.add rules) definitions := by
  intro findings
  have deleted {other : Rules} {test : String → Bool} (excuses : Lint.Excuses test rules other _ _) :
      findings other = (findings rules).filter (!·.issue.isUnresolvedAmong test) :=
    excuses.checkFrom_eq_filter [] definitions
  refine ⟨fun other => ⟨rfl, ?_⟩, fun names => ?_, fun starts => ?_, ?_, fun outputs => ?_, ?_⟩
  · exact Lint.filter_checkFrom_unruled rules other _ [] definitions
  · exact deleted (Lint.excuses_of_isBuiltin rfl rfl (rules.isBuiltin_withBuiltins names))
  · exact deleted (Lint.excuses_of_isBuiltin rfl rfl (rules.isBuiltin_append_prefixes starts))
  · rw [deleted Lint.excuses_withWarnUnresolved_false]
    simp only [Lint.isUnresolvedAmong_all, decide_not]
    rfl
  · exact Lint.filter_checkFrom_withOutputs rules outputs _ [] definitions
  · intro first second same
    rw [Rules.foldl_add, Rules.foldl_add, ofDefinitions, Lint.check,
      (Lint.excuses_withBuiltins same).checkFrom_eq]
    rfl

theorem Validation.ofDefinitions_of_additions_in_two_orders :
    let definitions : List Definition :=
      [⟨"a", [], [], .application (.identifier "clamp") [.literal 1], ⟨1, 1⟩⟩,
        ⟨"gl_Position", ["v", "v"], [⟨2, 13⟩, ⟨2, 15⟩], .application (.identifier "texture")
          [.application (.identifier "mod") [.identifier "v"]], ⟨2, 1⟩⟩]
    let first : List Rules.Addition := [.one "clamp", .all ["mod", "clamp"]]
    let second : List Rules.Addition := [.all ["mod"], .one "clamp"]
    (∀ name, name ∈ first.flatMap (·.names) ↔ name ∈ second.flatMap (·.names)) ∧
      ofDefinitions (first.foldl Rules.add .standard) definitions =
        ofDefinitions (second.foldl Rules.add .standard) definitions ∧
      (ofDefinitions .standard definitions).findings.map (·.issue) =
        [.unresolvedCallee "clamp", .duplicateParameter "v", .outputWithParameters 2,
          .unresolvedCallee "texture", .unresolvedCallee "mod"] ∧
      (ofDefinitions (second.foldl Rules.add .standard) definitions).findings.map (·.issue) =
        [.duplicateParameter "v", .outputWithParameters 2, .unresolvedCallee "texture"] := by
  intro definitions first second
  have same : ∀ name, name ∈ first.flatMap (·.names) ↔ name ∈ second.flatMap (·.names) := by
    intro name
    simp only [first, second, Rules.Addition.names, List.flatMap_cons, List.flatMap_nil,
      List.append_nil, List.mem_append, List.mem_cons, List.not_mem_nil, or_false]
    tauto
  refine ⟨same, ?_, by decide +kernel, by decide +kernel⟩
  exact (ofDefinitions_of_rules .standard definitions).2.2.2.2.2 first second same

end ShaderDefs
