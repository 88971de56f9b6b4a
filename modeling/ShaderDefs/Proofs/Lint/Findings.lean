import ShaderDefs.Lint.Check

/-! What each check finds. A finding of a list of definitions is a finding of one of them, given the
names before it. -/

set_option autoImplicit false

namespace ShaderDefs.Lint

variable {rules : Rules} {names earlier : List String} {definition : Definition} {finding : Finding}

theorem mem_checkName_iff :
    finding ∈ checkName earlier definition ↔
      definition.name ∈ earlier ∧
        finding = findingAt definition definition.position .duplicateDefinition := by
  rw [checkName, List.mem_ite_nil_right, List.contains_iff_mem, List.mem_singleton]

theorem mem_parameterIssues_iff {parameter : String} {index : Nat} {issue : Issue} :
    issue ∈ parameterIssues definition parameter index ↔
      parameter = definition.name ∧ issue = .parameterShadowsFunction parameter ∨
        parameter ∈ definition.parameters.take index ∧ issue = .duplicateParameter parameter := by
  rw [parameterIssues, List.mem_append, List.mem_ite_nil_right, List.mem_ite_nil_right,
    List.contains_iff_mem, List.mem_singleton, List.mem_singleton]

theorem mem_checkParameters_iff :
    finding ∈ checkParameters definition ↔
      ∃ index parameter, definition.parameters[index]? = some parameter ∧
        ∃ issue ∈ parameterIssues definition parameter index,
          finding = findingAt definition (definition.parameterPosition index) issue := by
  simp only [checkParameters, List.mem_flatMap, List.mem_map, Prod.exists,
    List.mk_mem_zipIdx_iff_getElem?]
  constructor
  · rintro ⟨parameter, index, found, issue, member, rfl⟩
    exact ⟨index, parameter, found, issue, member, rfl⟩
  · rintro ⟨index, parameter, found, issue, member, rfl⟩
    exact ⟨parameter, index, found, issue, member, rfl⟩

theorem mem_checkOutput_iff :
    finding ∈ checkOutput rules definition ↔
      (definition.isFunction ∧ definition.name ∈ rules.outputNames) ∧
        finding = findingAt definition definition.position
          (.outputWithParameters definition.arity) := by
  rw [checkOutput, List.mem_ite_nil_right, Bool.and_eq_true, Rules.isOutput_iff, List.mem_singleton]

theorem mem_checkCallees_iff :
    finding ∈ checkCallees rules names definition ↔
      rules.warnUnresolved ∧ ∃ callee ∈ callees definition,
        isResolved rules names definition callee = false ∧
        finding = findingAt definition definition.position (.unresolvedCallee callee) := by
  rw [checkCallees, List.mem_ite_nil_right, List.mem_map]
  simp only [List.mem_filter, Bool.not_eq_true', and_assoc, @eq_comm Finding finding]

theorem mem_checkFrom_iff {definitions : List Definition} :
    finding ∈ checkFrom rules names earlier definitions ↔
      ∃ front definition back, definitions = front ++ definition :: back ∧
        finding ∈ checkOne rules names ((front.map (·.name)).reverse ++ earlier) definition := by
  constructor
  · intro member
    induction definitions generalizing earlier with
    | nil => cases member
    | cons first rest ih =>
      rcases List.mem_append.1 member with own | later
      · exact ⟨[], first, rest, rfl, own⟩
      · obtain ⟨front, definition, back, rfl, found⟩ := ih later
        exact ⟨first :: front, definition, back, rfl, by simpa using found⟩
  · rintro ⟨front, definition, back, rfl, found⟩
    rw [checkFrom_append, checkFrom]
    exact List.mem_append_right _ (List.mem_append_left _ found)

def Issue.isUnresolvedCallee : Issue → Bool
  | .unresolvedCallee _ => true
  | _ => false

/-- The name is not defined, is no parameter of the definition, is not built in, and begins with no
prefix that is. -/
def IsUnknown (rules : Rules) (names : List String) (definition : Definition) (callee : String) :
    Prop :=
  callee ∉ names ∧ callee ∉ definition.parameters ∧ callee ∉ standardBuiltins ∧
    callee ∉ rules.extraBuiltins ∧ ∀ start ∈ rules.builtinPrefixes, ¬start.toList <+: callee.toList

theorem isResolved_eq_false_iff {callee : String} :
    isResolved rules names definition callee = false ↔ IsUnknown rules names definition callee := by
  have builtin : rules.isBuiltin callee = false ↔ ¬rules.isBuiltin callee := by simp
  rw [isResolved, Bool.or_eq_false_iff, Bool.or_eq_false_iff, builtin, Rules.isBuiltin_iff]
  simp [IsUnknown, and_assoc]

instance (callee : String) : Decidable (IsUnknown rules names definition callee) :=
  decidable_of_iff _ isResolved_eq_false_iff

theorem not_isResolved (callee : String) :
    (!isResolved rules names definition callee) =
      decide (IsUnknown rules names definition callee) := by
  rw [Bool.eq_iff_iff, Bool.not_eq_true', isResolved_eq_false_iff, decide_eq_true_iff]

theorem filter_checkOne :
    (checkOne rules names earlier definition).filter (·.issue.isUnresolvedCallee) =
      checkCallees rules names definition := by
  have none : (checkName earlier definition ++ checkParameters definition ++
      checkOutput rules definition).filter (·.issue.isUnresolvedCallee) = [] := by
    simp only [List.filter_eq_nil_iff, List.mem_append]
    rintro finding ((onName | onParameter) | onOutput)
    · obtain ⟨_, rfl⟩ := mem_checkName_iff.1 onName
      exact Bool.false_ne_true
    · obtain ⟨index, parameter, _, issue, issues, rfl⟩ := mem_checkParameters_iff.1 onParameter
      rcases mem_parameterIssues_iff.1 issues with ⟨_, rfl⟩ | ⟨_, rfl⟩ <;> exact Bool.false_ne_true
    · obtain ⟨_, rfl⟩ := mem_checkOutput_iff.1 onOutput
      exact Bool.false_ne_true
  have all : (checkCallees rules names definition).filter (·.issue.isUnresolvedCallee) =
      checkCallees rules names definition := by
    refine List.filter_eq_self.2 fun finding member => ?_
    obtain ⟨_, callee, _, _, rfl⟩ := mem_checkCallees_iff.1 member
    rfl
  rw [checkOne, List.filter_append, none, all, List.nil_append]

/-- Where the findings kept of a definition do not depend on the names before it, those kept of a list
come one definition at a time. -/
theorem filter_checkFrom_eq_flatMap {test : Finding → Bool} {kept : Definition → List Finding}
    (each : ∀ earlier definition,
      (checkOne rules names earlier definition).filter test = kept definition)
    (earlier : List String) (definitions : List Definition) :
    (checkFrom rules names earlier definitions).filter test = definitions.flatMap kept := by
  induction definitions generalizing earlier with
  | nil => rfl
  | cons definition rest ih =>
    rw [checkFrom, List.filter_append, each, ih, List.flatMap_cons]

theorem filter_checkFrom {definitions : List Definition} :
    (checkFrom rules names earlier definitions).filter (·.issue.isUnresolvedCallee) =
      definitions.flatMap (checkCallees rules names) :=
  filter_checkFrom_eq_flatMap (fun _ _ => filter_checkOne) earlier definitions

theorem code_of_mem_checkName (member : finding ∈ checkName earlier definition) :
    finding.code = "duplicate_definition" := by
  obtain ⟨_, rfl⟩ := mem_checkName_iff.1 member
  rfl

theorem code_of_mem_checkParameters (member : finding ∈ checkParameters definition) :
    finding.code = "parameter_shadows_function" ∨ finding.code = "duplicate_parameter" := by
  obtain ⟨_, _, _, _, issues, rfl⟩ := mem_checkParameters_iff.1 member
  rcases mem_parameterIssues_iff.1 issues with ⟨_, rfl⟩ | ⟨_, rfl⟩
  · exact .inl rfl
  · exact .inr rfl

theorem code_of_mem_checkOutput (member : finding ∈ checkOutput rules definition) :
    finding.code = "output_with_parameters" := by
  obtain ⟨_, rfl⟩ := mem_checkOutput_iff.1 member
  rfl

theorem code_of_mem_checkCallees (member : finding ∈ checkCallees rules names definition) :
    finding.code = "unresolved_callee" := by
  obtain ⟨_, _, _, _, rfl⟩ := mem_checkCallees_iff.1 member
  rfl

theorem issue_ne_of_code {issue : Issue} (code : finding.code ≠ issue.code) :
    finding.issue ≠ issue := by
  rintro rfl
  exact code rfl

def checkApart (rules : Rules) (names : List String) (definition : Definition) : List Finding :=
  checkParameters definition ++ checkOutput rules definition ++ checkCallees rules names definition

theorem checkOne_eq_append :
    checkOne rules names earlier definition =
      checkName earlier definition ++ checkApart rules names definition := by
  simp only [checkOne, checkApart, List.append_assoc]

theorem issue_of_mem_checkName (member : finding ∈ checkName earlier definition) :
    finding.issue = .duplicateDefinition := by
  obtain ⟨_, rfl⟩ := mem_checkName_iff.1 member
  rfl

theorem issue_of_mem_checkApart (member : finding ∈ checkApart rules names definition) :
    finding.issue ≠ .duplicateDefinition := by
  apply issue_ne_of_code
  simp only [checkApart, List.mem_append, or_assoc] at member
  rcases member with onParameter | onOutput | onCallee
  · rcases code_of_mem_checkParameters onParameter with code | code <;> rw [code] <;> decide
  · rw [code_of_mem_checkOutput onOutput]
    decide
  · rw [code_of_mem_checkCallees onCallee]
    decide

theorem filter_duplicateDefinition_checkOne :
    (checkOne rules names earlier definition).filter (·.issue = .duplicateDefinition) =
      checkName earlier definition := by
  have own : (checkName earlier definition).filter (·.issue = .duplicateDefinition) =
      checkName earlier definition :=
    List.filter_eq_self.2 fun _ member => decide_eq_true (issue_of_mem_checkName member)
  have others : (checkApart rules names definition).filter (·.issue = .duplicateDefinition) = [] :=
    List.filter_eq_nil_iff.2 fun _ member taken =>
      issue_of_mem_checkApart member (of_decide_eq_true taken)
  rw [checkOne_eq_append, List.filter_append, own, others, List.append_nil]

theorem filter_checkOne_of_ne :
    (checkOne rules names earlier definition).filter (·.issue ≠ .duplicateDefinition) =
      checkApart rules names definition := by
  have own : (checkName earlier definition).filter (·.issue ≠ .duplicateDefinition) = [] :=
    List.filter_eq_nil_iff.2 fun _ member other =>
      of_decide_eq_true other (issue_of_mem_checkName member)
  have others : (checkApart rules names definition).filter (·.issue ≠ .duplicateDefinition) =
      checkApart rules names definition :=
    List.filter_eq_self.2 fun _ member => decide_eq_true (issue_of_mem_checkApart member)
  rw [checkOne_eq_append, List.filter_append, own, others, List.nil_append]

end ShaderDefs.Lint
