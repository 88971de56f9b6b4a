import Mathlib.Data.List.FinRange
import ShaderDefs.Proofs.Lint.Excusing
import ShaderDefs.Proofs.Lint.Listing

/-! The order of definitions. A name may be applied before it is defined, so another order finds the same.
Only which of the definitions of a name comes first depends on it, and not how many come after. -/

set_option autoImplicit false

namespace ShaderDefs

namespace Lint

variable {first second : List Definition}

theorem excuses_of_perm (rules : Rules) {names others : List String} (perm : others.Perm names) :
    Excuses (fun _ => false) rules rules names others where
  outputs := rfl
  reported definition callee := by
    simp only [isReported, isResolved, List.contains_eq_mem, perm.mem_iff]
    rfl

theorem perm_filter_check (rules : Rules) (perm : first.Perm second) :
    ((check rules first).filter (·.issue ≠ .duplicateDefinition)).Perm
      ((check rules second).filter (·.issue ≠ .duplicateDefinition)) := by
  unfold check
  rw [(excuses_of_perm rules (perm.map _)).checkFrom_eq,
    filter_checkFrom_eq_flatMap (fun _ _ => filter_checkOne_of_ne),
    filter_checkFrom_eq_flatMap (fun _ _ => filter_checkOne_of_ne)]
  exact perm.flatMap_right _

theorem countP_check_duplicateDefinition (rules : Rules) (definitions : List Definition) (name : String) :
    (check rules definitions).countP
        (fun finding => finding.issue = .duplicateDefinition ∧ finding.definition = name) =
      (definitions.map (·.name)).count name - 1 := by
  rw [check_eq_flatMap]
  refine countP_flatMap_zipIdx fun indexed => ?_
  rw [checkAt, countP_checkOne_duplicateDefinition]
  simp only [List.mem_reverse]

theorem perm_duplicates_check (rules : Rules) (perm : first.Perm second) :
    (((check rules first).filter (·.issue = .duplicateDefinition)).map (·.definition)).Perm
      (((check rules second).filter (·.issue = .duplicateDefinition)).map (·.definition)) := by
  rw [List.perm_iff_count]
  intro name
  have counted : ∀ definitions : List Definition,
      (((check rules definitions).filter (·.issue = .duplicateDefinition)).map
          (·.definition)).count name = (definitions.map (·.name)).count name - 1 := by
    intro definitions
    rw [← countP_check_duplicateDefinition rules, List.count_eq_countP, List.countP_map,
      List.countP_filter]
    congr 1
    funext finding
    rw [Function.comp_apply, beq_eq_decide, Bool.and_comm, Bool.decide_and]
  rw [counted, counted, (perm.map _).count_eq]

theorem length_check_of_perm (rules : Rules) (perm : first.Perm second) :
    (check rules first).length = (check rules second).length := by
  have taken := (perm_duplicates_check rules perm).length_eq
  have apart := (perm_filter_check rules perm).length_eq
  simp only [List.length_map, decide_not] at taken apart
  rw [List.length_eq_length_filter_add (·.issue = .duplicateDefinition), taken, apart,
    ← List.length_eq_length_filter_add]

end Lint

/-- In another order the program has the same functions in that order. All findings are the same but those
on names that are taken, of which each name has as many as before. -/
theorem Validation.ofDefinitions_reordered (rules : Lint.Rules) (definitions : List Definition)
    (order : Equiv.Perm (Fin definitions.length)) :
    let before := ofDefinitions rules definitions
    let after := ofDefinitions rules (List.ofFn fun index => definitions[order index])
    (after.program.size = before.program.size ∧
      ∀ index : Fin definitions.length,
        after.program.functions[index]? = before.program.functions[order index]?) ∧
    (after.findings.filter (·.issue ≠ .duplicateDefinition)).Perm
      (before.findings.filter (·.issue ≠ .duplicateDefinition)) ∧
    (∀ name, after.findings.countP
        (fun finding => finding.issue = .duplicateDefinition ∧ finding.definition = name) =
      before.findings.countP
        (fun finding => finding.issue = .duplicateDefinition ∧ finding.definition = name)) ∧
    after.isClean = before.isClean ∧ after.warningCount = before.warningCount := by
  intro before after
  have perm : (List.ofFn fun index => definitions[order index]).Perm definitions := by
    have same := order.ofFn_comp_perm definitions.get
    rwa [List.ofFn_get] at same
  have length : after.findings.length = before.findings.length :=
    Lint.length_check_of_perm rules perm
  refine ⟨⟨?_, fun index => ?_⟩, Lint.perm_filter_check rules perm, fun name => ?_, ?_, length⟩
  · simp [after, before, ofDefinitions, Program.size, Program.ofDefinitions]
  · simp [after, before, ofDefinitions, Program.ofDefinitions]
  · simp only [after, before, ofDefinitions, Lint.countP_check_duplicateDefinition,
      (perm.map _).count_eq]
  · rw [isClean, isClean, Bool.eq_iff_iff, List.isEmpty_iff_length_eq_zero,
      List.isEmpty_iff_length_eq_zero, length]

end ShaderDefs
