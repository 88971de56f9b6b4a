import Mathlib.Data.List.Forall2
import Mathlib.Data.List.Induction
import ShaderDefs.Proofs.Expr.Path
import ShaderDefs.Proofs.Lint.Findings
import ShaderDefs.Validation

/-! What validation lists. Every definition stays in the program, and the findings come definition by
definition: a name that is taken, the parameters one by one, an output with parameters, and the unknown
names that the body applies. -/

set_option autoImplicit false

namespace ShaderDefs

namespace Lint

/-- One finding, which has the code, where the condition holds, and none where it fails. -/
inductive OneIf (condition : Prop) (code : String) (finding : Finding) : List Finding → Prop where
  | found (holds : condition) (coded : finding.code = code) : OneIf condition code finding [finding]
  | clean (fails : ¬condition) : OneIf condition code finding []

def OnParameter (definition : Definition) (index : Nat) (parameter : String)
    (findings : List Finding) : Prop :=
  let report := findingAt definition (definition.parameterPosition index)
  ∃ shadows doubles, findings = shadows ++ doubles ∧
    OneIf (parameter = definition.name) "parameter_shadows_function"
      (report (.parameterShadowsFunction parameter)) shadows ∧
    OneIf (parameter ∈ definition.parameters.take index) "duplicate_parameter"
      (report (.duplicateParameter parameter)) doubles

/-- The findings on the names that the body applies, one for each node that applies an unknown name, in
the order of the paths to these nodes. -/
def OnCallees (rules : Rules) (names : List String) (definition : Definition)
    (findings : List Finding) : Prop :=
  ∃ places : List (List Nat × String),
    places.Pairwise (fun first second => first.1 < second.1) ∧
    (∀ path callee, (path, callee) ∈ places ↔
      (∃ arguments, definition.body.at? path = some (.application (.identifier callee) arguments)) ∧
        IsUnknown rules names definition callee) ∧
    (findings = places.map fun place =>
      findingAt definition definition.position (.unresolvedCallee place.2)) ∧
    ∀ finding ∈ findings, finding.code = "unresolved_callee"

/-- The findings on the definition with the index, those on its parameters by parameter. -/
structure OnDefinition (rules : Rules) (definitions : List Definition) (index : Nat)
    (definition : Definition) (doubles : List Finding) (onParameters : List (List Finding))
    (outputs unknown : List Finding) : Prop where
  name : OneIf (∃ earlier ∈ definitions.take index, earlier.name = definition.name)
    "duplicate_definition" (findingAt definition definition.position .duplicateDefinition) doubles
  parameters : List.Forall₂
    (fun indexed findings => OnParameter definition indexed.2 indexed.1 findings)
    definition.parameters.zipIdx onParameters
  output : OneIf (definition.parameters ≠ [] ∧ definition.name ∈ rules.outputNames)
    "output_with_parameters" (findingAt definition definition.position
      (.outputWithParameters definition.parameters.length)) outputs
  callees : rules.warnUnresolved = true →
    OnCallees rules (definitions.map (·.name)) definition unknown
  unasked : rules.warnUnresolved = false → unknown = []

theorem oneIf_ite {condition test : Prop} [Decidable test] (same : test ↔ condition)
    {code : String} (finding : Finding) (coded : finding.code = code) :
    OneIf condition code finding (if test then [finding] else []) := by
  split
  next holds => exact .found (same.1 holds) coded
  next fails => exact .clean fun holds => fails (same.2 holds)

variable {rules : Rules} {names earlier : List String} {definition : Definition}
variable {definitions : List Definition}

theorem onParameter_parameterIssues (definition : Definition) (index : Nat) (parameter : String) :
    OnParameter definition index parameter ((parameterIssues definition parameter index).map
      (findingAt definition (definition.parameterPosition index))) := by
  refine ⟨_, _, ?_, oneIf_ite Iff.rfl _ rfl, oneIf_ite List.contains_iff_mem _ rfl⟩
  rw [parameterIssues, List.map_append, apply_ite (List.map _), apply_ite (List.map _)]
  rfl

theorem exists_onParameter (definition : Definition) :
    ∃ parts, checkParameters definition = parts.flatten ∧
      List.Forall₂ (fun indexed findings => OnParameter definition indexed.2 indexed.1 findings)
        definition.parameters.zipIdx parts := by
  refine ⟨_, List.flatMap_def, ?_⟩
  rw [List.forall₂_map_right_iff, List.forall₂_same]
  exact fun indexed _ => onParameter_parameterIssues definition indexed.2 indexed.1

theorem onCallees_checkCallees (asked : rules.warnUnresolved) :
    OnCallees rules names definition (checkCallees rules names definition) := by
  obtain ⟨places, lists, same⟩ := definition.body.exists_listsNodes
  let unknown (place : List Nat × Expr) : Option (List Nat × String) :=
    (place.2.calleeName?.filter (IsUnknown rules names definition ·)).map (place.1, ·)
  have shape : ∀ {place : List Nat × Expr} {path : List Nat} {callee : String},
      unknown place = some (path, callee) ↔ place.1 = path ∧
        place.2.calleeName? = some callee ∧ IsUnknown rules names definition callee := by
    intro place path callee
    simp only [unknown, Option.map_eq_some_iff, Option.filter_eq_some_iff, decide_eq_true_iff,
      Prod.mk.injEq]
    constructor
    · rintro ⟨_, found, same, rfl⟩
      exact ⟨same, found⟩
    · rintro ⟨same, found⟩
      exact ⟨callee, found, same, rfl⟩
  refine ⟨places.filterMap unknown, ?_, fun path callee => ?_, ?_, fun _ => code_of_mem_checkCallees⟩
  · refine lists.ordered.filterMap unknown fun first second less => ?_
    rintro ⟨path, callee⟩ found ⟨other, name⟩ again
    rw [← (shape.1 found).1, ← (shape.1 again).1]
    exact less
  · rw [List.mem_filterMap]
    constructor
    · rintro ⟨⟨place, node⟩, member, found⟩
      obtain ⟨rfl, applies, isUnknown⟩ := shape.1 found
      obtain ⟨arguments, rfl⟩ := Expr.calleeName?_eq_some_iff.1 applies
      exact ⟨⟨arguments, (lists.mem_iff place _).1 member⟩, isUnknown⟩
    · rintro ⟨⟨arguments, found⟩, isUnknown⟩
      exact ⟨_, (lists.mem_iff path _).2 found, shape.2 ⟨rfl, rfl, isUnknown⟩⟩
  · -- Without their paths the places are the nodes, so both are filtered alike.
    have applied : (callees definition).filter (!isResolved rules names definition ·) =
        (places.filterMap unknown).map Prod.snd := by
      rw [callees, ← same, List.filterMap_map, List.filter_filterMap, List.map_filterMap]
      refine List.filterMap_congr fun place _ => ?_
      simp only [unknown, not_isResolved, Option.map_map]
      exact (congrFun Option.map_id _).symm
    rw [checkCallees, if_pos asked, applied, List.map_map]
    rfl

theorem oneIf_checkName (definitions : List Definition) (index : Nat) (definition : Definition) :
    OneIf (∃ earlier ∈ definitions.take index, earlier.name = definition.name)
      "duplicate_definition" (findingAt definition definition.position .duplicateDefinition)
      (checkName ((definitions.take index).map (·.name)).reverse definition) := by
  refine oneIf_ite ?_ _ rfl
  rw [List.contains_iff_mem, List.mem_reverse, List.mem_map]

theorem oneIf_checkOutput (rules : Rules) (definition : Definition) :
    OneIf (definition.parameters ≠ [] ∧ definition.name ∈ rules.outputNames)
      "output_with_parameters" (findingAt definition definition.position
        (.outputWithParameters definition.parameters.length)) (checkOutput rules definition) := by
  refine oneIf_ite ?_ _ rfl
  rw [Bool.and_eq_true, Rules.isOutput_iff, Definition.isFunction]
  simp

def checkAt (rules : Rules) (definitions : List Definition) (indexed : Definition × Nat) :
    List Finding :=
  checkOne rules (definitions.map (·.name)) ((definitions.take indexed.2).map (·.name)).reverse
    indexed.1

theorem exists_onDefinition (rules : Rules) (definitions : List Definition)
    (indexed : Definition × Nat) :
    ∃ doubles onParameters outputs unknown,
      OnDefinition rules definitions indexed.2 indexed.1 doubles onParameters outputs unknown ∧
        checkAt rules definitions indexed = doubles ++ onParameters.flatten ++ outputs ++ unknown := by
  obtain ⟨onParameters, same, each⟩ := exists_onParameter indexed.1
  have unasked : rules.warnUnresolved = false →
      checkCallees rules (definitions.map (·.name)) indexed.1 = [] := by
    intro unasked
    rw [checkCallees, unasked]
    rfl
  refine ⟨_, onParameters, _, _, ⟨oneIf_checkName definitions indexed.2 indexed.1, each,
    oneIf_checkOutput rules indexed.1, onCallees_checkCallees, unasked⟩, ?_⟩
  rw [checkAt, checkOne, same]

/-- What goes on from a beginning of a list to the next item holds of the whole list. -/
theorem induction_take {Item : Type} {items : List Item} {motive : List Item → Prop}
    (nil : motive [])
    (concat : ∀ front last, items.take front.length = front → motive front → motive (front ++ [last])) :
    motive items := by
  have prefixes : ∀ front, front <+: items → motive front := by
    intro front
    induction front using List.reverseRecOn with
    | nil => exact fun _ => nil
    | append_singleton front last ih =>
      intro begins
      have shorter := (List.prefix_append front [last]).trans begins
      exact concat front last (List.prefix_iff_eq_take.1 shorter).symm (ih shorter)
  exact prefixes items (List.prefix_refl items)

theorem checkFrom_eq_flatMap (front back : List Definition) :
    checkFrom rules names (front.map (·.name)).reverse back =
      (back.zipIdx front.length).flatMap fun indexed =>
        checkOne rules names (((front ++ back).take indexed.2).map (·.name)).reverse indexed.1 := by
  induction back generalizing front with
  | nil => rfl
  | cons definition back ih =>
    have taken := ih (front ++ [definition])
    simp only [List.map_append, List.map_singleton, List.reverse_append, List.reverse_singleton,
      List.singleton_append, List.length_append, List.length_singleton, List.append_assoc] at taken
    rw [checkFrom, taken, List.zipIdx_cons, List.flatMap_cons, List.take_left]

theorem check_eq_flatMap (rules : Rules) (definitions : List Definition) :
    check rules definitions = definitions.zipIdx.flatMap (checkAt rules definitions) :=
  checkFrom_eq_flatMap [] definitions

section Counts

variable {test : Finding → Bool} {name : String}

/-- Where a finding is made for each name that an earlier item has, there is one fewer of them than there
are items of the name. -/
theorem countP_flatMap_zipIdx {Item : Type} {items : List Item} {nameOf : Item → String}
    {report : Item × Nat → List Finding}
    (each : ∀ indexed, (report indexed).countP test =
      if nameOf indexed.1 = name ∧ name ∈ (items.take indexed.2).map nameOf then 1 else 0) :
    (items.zipIdx.flatMap report).countP test = (items.map nameOf).count name - 1 := by
  refine @induction_take _ items (fun front =>
    (front.zipIdx.flatMap report).countP test = (front.map nameOf).count name - 1) rfl ?_
  intro front last taken ih
  rw [List.zipIdx_append, List.flatMap_append, List.countP_append, ih, List.zipIdx_singleton,
    List.flatMap_singleton, each, Nat.zero_add, taken, List.map_append, List.map_singleton,
    List.count_append, List.count_singleton]
  -- The first item of the name has none before it, and every further one has.
  by_cases before : name ∈ front.map nameOf
  · have some := List.count_pos_iff.2 before
    by_cases same : nameOf last = name
    · simp only [same, before, and_self, beq_self_eq_true, if_true]
      omega
    · simp [same]
  · have none := List.count_eq_zero.2 before
    simp only [none, before, and_false, if_false]
    split <;> rfl

theorem countP_parameterIssues (parameter other : String) (index : Nat) (position : Position) :
    ((parameterIssues definition other index).map (findingAt definition position)).countP
        (·.issue = .duplicateParameter parameter) =
      if other = parameter ∧ parameter ∈ definition.parameters.take index then 1 else 0 := by
  unfold parameterIssues
  rw [List.map_append, List.countP_append, apply_ite (List.map _), apply_ite (List.map _),
    apply_ite (List.countP _), apply_ite (List.countP _)]
  by_cases same : other = parameter
  · simp [same, findingAt]
  · simp [same, findingAt]

theorem countP_checkParameters (definition : Definition) (parameter : String) :
    (checkParameters definition).countP (·.issue = .duplicateParameter parameter) =
      definition.parameters.count parameter - 1 := by
  rw [← List.map_id definition.parameters]
  refine countP_flatMap_zipIdx fun indexed => ?_
  rw [countP_parameterIssues, List.map_id]
  rfl

theorem countP_checkOutput_eq_zero
    (other : ∀ count,
      test (findingAt definition definition.position (.outputWithParameters count)) = false) :
    (checkOutput rules definition).countP test = 0 := by
  rw [List.countP_eq_zero]
  intro finding member
  obtain ⟨_, rfl⟩ := mem_checkOutput_iff.1 member
  exact Bool.eq_false_iff.1 (other _)

theorem countP_checkCallees_eq_zero
    (other : ∀ callee,
      test (findingAt definition definition.position (.unresolvedCallee callee)) = false) :
    (checkCallees rules names definition).countP test = 0 := by
  rw [List.countP_eq_zero]
  intro finding member
  obtain ⟨_, callee, _, _, rfl⟩ := mem_checkCallees_iff.1 member
  exact Bool.eq_false_iff.1 (other callee)

theorem countP_checkOne_duplicateParameter (parameter : String) :
    (checkOne rules names earlier definition).countP (·.issue = .duplicateParameter parameter) =
      definition.parameters.count parameter - 1 := by
  have onName : (checkName earlier definition).countP (·.issue = .duplicateParameter parameter) = 0 := by
    rw [List.countP_eq_zero]
    intro finding member
    obtain ⟨_, rfl⟩ := mem_checkName_iff.1 member
    simp [findingAt]
  rw [checkOne, List.countP_append, List.countP_append, List.countP_append, onName,
    countP_checkParameters, countP_checkOutput_eq_zero fun _ => rfl,
    countP_checkCallees_eq_zero fun _ => rfl, Nat.zero_add]
  rfl

theorem countP_checkOne_duplicateDefinition (name : String) :
    (checkOne rules names earlier definition).countP
        (fun finding => finding.issue = .duplicateDefinition ∧ finding.definition = name) =
      if definition.name = name ∧ name ∈ earlier then 1 else 0 := by
  have onParameters : (checkParameters definition).countP
      (fun finding => finding.issue = .duplicateDefinition ∧ finding.definition = name) = 0 := by
    rw [List.countP_eq_zero]
    intro finding member
    obtain ⟨index, parameter, _, issue, issues, rfl⟩ := mem_checkParameters_iff.1 member
    rcases mem_parameterIssues_iff.1 issues with ⟨_, rfl⟩ | ⟨_, rfl⟩ <;> simp [findingAt]
  have onName : (checkName earlier definition).countP
      (fun finding => finding.issue = .duplicateDefinition ∧ finding.definition = name) =
        if definition.name = name ∧ name ∈ earlier then 1 else 0 := by
    rw [checkName, apply_ite (List.countP _)]
    by_cases same : definition.name = name
    · simp [same, findingAt]
    · simp [same, findingAt]
  rw [checkOne, List.countP_append, List.countP_append, List.countP_append, onName, onParameters,
    countP_checkOutput_eq_zero fun _ => rfl, countP_checkCallees_eq_zero fun _ => rfl]
  rfl

end Counts

end Lint

/-- All definitions stay in the program, in their order, each with its body as compact text. The findings
come definition by definition and on each in the order of the checks. Every definition of a name but the
first is reported, and so is every parameter of a name but the first one of its definition. -/
theorem Validation.ofDefinitions_lists_findings (rules : Lint.Rules) (definitions : List Definition) :
    let validation := ofDefinitions rules definitions
    validation.program.functions = definitions.map (fun definition =>
        { name := definition.name
          arguments := definition.parameters
          expression := definition.body.print .compact
          position := definition.position }) ∧
      (∃ parts, validation.findings = parts.flatten ∧
        List.Forall₂ (fun indexed part =>
          (∃ doubles onParameters outputs unknown,
            Lint.OnDefinition rules definitions indexed.2 indexed.1 doubles onParameters outputs
              unknown ∧
            part = doubles ++ onParameters.flatten ++ outputs ++ unknown) ∧
          ∀ parameter, part.countP (·.issue = .duplicateParameter parameter) =
            indexed.1.parameters.count parameter - 1)
          definitions.zipIdx parts) ∧
      ∀ name, validation.findings.countP
          (fun finding => finding.issue = .duplicateDefinition ∧ finding.definition = name) =
        validation.program.names.count name - 1 := by
  intro validation
  have same : validation.findings = definitions.zipIdx.flatMap (Lint.checkAt rules definitions) :=
    Lint.check_eq_flatMap rules definitions
  have names : validation.program.names = definitions.map (·.name) := List.map_map
  refine ⟨rfl, ⟨_, same.trans List.flatMap_def, ?_⟩, fun name => ?_⟩
  · rw [List.forall₂_map_right_iff, List.forall₂_same]
    intro indexed _
    exact ⟨Lint.exists_onDefinition rules definitions indexed,
      fun _ => Lint.countP_checkOne_duplicateParameter _⟩
  · rw [same, names]
    refine Lint.countP_flatMap_zipIdx fun indexed => ?_
    rw [Lint.checkAt, Lint.countP_checkOne_duplicateDefinition]
    simp only [List.mem_reverse]

/-- The inner callee is built in, and the first definition of the name is not reported. -/
example :
    let body : Expr := .application (.identifier "g") [.application (.identifier "sin") [.literal 1]]
    let definitions : List Definition :=
      [⟨"f", ["x", "f", "x"], [], body, ⟨1, 1⟩⟩, ⟨"f", [], [], body, ⟨2, 1⟩⟩]
    (Validation.ofDefinitions .standard definitions).findings.map (·.code) =
      ["parameter_shadows_function", "duplicate_parameter", "unresolved_callee",
        "duplicate_definition", "unresolved_callee"] := by decide +kernel

end ShaderDefs
