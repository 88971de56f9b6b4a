import ShaderDefs.Proofs.Lint.Excusing
import ShaderDefs.Proofs.Lint.Listing

/-! More definitions behind others. What was found before stays in its order, but for the names that the
new definitions define, and all that comes after it is about the new definitions. -/

set_option autoImplicit false

namespace ShaderDefs

namespace Lint

/-- The finding names the definition and stands at its name or at one of its parameters. -/
structure Finding.BelongsTo (finding : Finding) (definition : Definition) : Prop where
  named : finding.definition = definition.name
  placed : finding.position = definition.position ∨
    ∃ index < definition.arity, finding.position = definition.parameterPosition index

variable {rules : Rules} {names earlier : List String} {definition : Definition} {finding : Finding}

theorem belongsTo_findingAt (definition : Definition) (issue : Issue) :
    (findingAt definition definition.position issue).BelongsTo definition where
  named := rfl
  placed := .inl rfl

theorem belongsTo_of_mem_checkOne (member : finding ∈ checkOne rules names earlier definition) :
    finding.BelongsTo definition := by
  simp only [checkOne, List.mem_append, or_assoc] at member
  rcases member with onName | onParameter | onOutput | onCallee
  · obtain ⟨_, rfl⟩ := mem_checkName_iff.1 onName
    exact belongsTo_findingAt definition _
  · obtain ⟨index, parameter, found, issue, _, rfl⟩ := mem_checkParameters_iff.1 onParameter
    obtain ⟨within, _⟩ := List.getElem?_eq_some_iff.1 found
    exact ⟨rfl, .inr ⟨index, within, rfl⟩⟩
  · obtain ⟨_, rfl⟩ := mem_checkOutput_iff.1 onOutput
    exact belongsTo_findingAt definition _
  · obtain ⟨_, callee, _, _, rfl⟩ := mem_checkCallees_iff.1 onCallee
    exact belongsTo_findingAt definition _

theorem excuses_append (rules : Rules) (names more : List String) :
    Excuses (fun callee => callee ∈ more) rules rules names (names ++ more) where
  outputs := rfl
  reported definition callee := by
    simp only [isReported, isResolved, List.contains_eq_mem, List.mem_append, Bool.decide_or,
      Bool.not_or]
    ac_rfl

/-- The first findings are those of the first definitions, and each further definition is checked where it
stands. -/
theorem check_append (rules : Rules) (definitions others : List Definition) :
    check rules (definitions ++ others) =
      (check rules definitions).filter
          (!·.issue.isUnresolvedAmong fun callee => callee ∈ others.map (·.name)) ++
        others.zipIdx.flatMap fun indexed =>
          checkAt rules (definitions ++ others) (indexed.1, definitions.length + indexed.2) := by
  unfold check checkAt
  rw [checkFrom_append, List.append_nil, checkFrom_eq_flatMap, List.zipIdx_eq_map_add,
    List.flatMap_map, List.map_append, (excuses_append rules _ _).checkFrom_eq_filter]

end Lint

/-- The program of more definitions begins with the program of the first ones. Their findings come first
and are those without the others but for the names that the others define. The further findings come
definition by definition and belong to the others, each of which is reported once as a duplicate if a
definition before it has its name. -/
theorem Validation.ofDefinitions_append (rules : Lint.Rules) (definitions others : List Definition) :
    let before := ofDefinitions rules definitions
    let after := ofDefinitions rules (definitions ++ others)
    after.program.functions = before.program.functions ++ others.map .ofDefinition ∧
      ∃ parts, after.findings =
          before.findings.filter (!·.issue.isUnresolvedAmong fun callee =>
            callee ∈ others.map (·.name)) ++ parts.flatten ∧
        List.Forall₂ (fun indexed part =>
          (∀ finding ∈ part, finding.BelongsTo indexed.1) ∧
          Lint.OneIf (∃ earlier ∈ definitions ++ others.take indexed.2, earlier.name = indexed.1.name)
            "duplicate_definition" (Lint.findingAt indexed.1 indexed.1.position .duplicateDefinition)
            (part.filter (·.issue = .duplicateDefinition)))
          others.zipIdx parts := by
  intro before after
  have findings : after.findings = _ := Lint.check_append rules definitions others
  refine ⟨List.map_append, _, findings.trans (congrArg _ List.flatMap_def), ?_⟩
  rw [List.forall₂_map_right_iff, List.forall₂_same]
  rintro ⟨definition, index⟩ _
  constructor
  · exact fun finding => Lint.belongsTo_of_mem_checkOne
  · -- In the whole list the definition stands behind all of the first ones.
    have taken := Lint.oneIf_checkName (definitions ++ others) (definitions.length + index) definition
    rw [Lint.checkAt, Lint.filter_duplicateDefinition_checkOne]
    rw [List.take_length_add_append] at taken ⊢
    exact taken

end ShaderDefs
