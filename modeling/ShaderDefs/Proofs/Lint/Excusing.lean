import Mathlib.Data.List.Basic
import ShaderDefs.Proofs.Lint.Findings

/-! Two runs of the checks that differ in which names are known. If the second knows some more, it finds
the same but for those names: their findings go, and all others stay where they are. -/

set_option autoImplicit false

namespace ShaderDefs.Lint

def Issue.isUnresolvedAmong (test : String → Bool) : Issue → Bool
  | .unresolvedCallee callee => test callee
  | _ => false

def isReported (rules : Rules) (names : List String) (definition : Definition) (callee : String) :
    Bool :=
  rules.warnUnresolved && !isResolved rules names definition callee

/-- The other rules and names report what the first ones do but for the names that pass the test. -/
structure Excuses (test : String → Bool) (rules other : Rules) (names others : List String) : Prop where
  outputs : other.outputNames = rules.outputNames
  reported : ∀ definition callee, isReported other others definition callee =
    (!test callee && isReported rules names definition callee)

variable {rules other : Rules} {names others earlier : List String} {definition : Definition}

theorem filter_checkFrom_eq_filter {test keep : Finding → Bool}
    (each : ∀ earlier definition, (checkOne other others earlier definition).filter test =
      (checkOne rules names earlier definition).filter keep)
    (earlier : List String) (definitions : List Definition) :
    (checkFrom other others earlier definitions).filter test =
      (checkFrom rules names earlier definitions).filter keep := by
  induction definitions generalizing earlier with
  | nil => rfl
  | cons definition rest ih =>
    rw [checkFrom, checkFrom, List.filter_append, List.filter_append, each, ih]

theorem checkCallees_eq :
    checkCallees rules names definition =
      ((callees definition).filter (isReported rules names definition)).map fun callee =>
        findingAt definition definition.position (.unresolvedCallee callee) := by
  unfold checkCallees isReported
  cases rules.warnUnresolved with
  | true => rfl
  | false => simp

theorem checkOutput_eq_of_outputNames (outputs : other.outputNames = rules.outputNames) :
    checkOutput other definition = checkOutput rules definition := by
  unfold checkOutput Rules.isOutput
  rw [outputs]

theorem isUnresolvedAmong_all (issue : Issue) :
    issue.isUnresolvedAmong (fun _ => true) = decide (issue.code = "unresolved_callee") := by
  cases issue <;> rfl

theorem isUnresolvedAmong_none (issue : Issue) : issue.isUnresolvedAmong (fun _ => false) = false := by
  cases issue <;> rfl

theorem isUnresolvedAmong_eq_false {test : String → Bool} {issue : Issue}
    (code : issue.code ≠ "unresolved_callee") : issue.isUnresolvedAmong test = false := by
  cases issue with
  | unresolvedCallee callee => exact absurd rfl code
  | _ => rfl

namespace Excuses

variable {test : String → Bool} (excuses : Excuses test rules other names others)
include excuses

theorem checkCallees_eq_filter (definition : Definition) :
    checkCallees other others definition =
      (checkCallees rules names definition).filter (!·.issue.isUnresolvedAmong test) := by
  rw [checkCallees_eq, checkCallees_eq, List.filter_map, List.filter_filter]
  congr 1
  apply List.filter_congr
  intro callee _
  exact excuses.reported definition callee

theorem checkOne_eq_filter (earlier : List String) (definition : Definition) :
    checkOne other others earlier definition =
      (checkOne rules names earlier definition).filter (!·.issue.isUnresolvedAmong test) := by
  have stays : (checkName earlier definition ++ checkParameters definition ++
      checkOutput rules definition).filter (!·.issue.isUnresolvedAmong test) =
        checkName earlier definition ++ checkParameters definition ++
          checkOutput rules definition := by
    apply List.filter_eq_self.2
    intro finding member
    have code : finding.code ≠ "unresolved_callee" := by
      rcases List.mem_append.1 member with member | onOutput
      · rcases List.mem_append.1 member with onName | onParameters
        · simp [code_of_mem_checkName onName]
        · rcases code_of_mem_checkParameters onParameters with code | code <;> simp [code]
      · simp [code_of_mem_checkOutput onOutput]
    rw [isUnresolvedAmong_eq_false code]
    rfl
  rw [checkOne, checkOne, List.filter_append, stays, checkOutput_eq_of_outputNames excuses.outputs,
    excuses.checkCallees_eq_filter]

theorem checkFrom_eq_filter (earlier : List String) (definitions : List Definition) :
    checkFrom other others earlier definitions =
      (checkFrom rules names earlier definitions).filter (!·.issue.isUnresolvedAmong test) := by
  rw [← List.filter_true (checkFrom other others earlier definitions)]
  apply filter_checkFrom_eq_filter
  intro earlier definition
  rw [List.filter_true]
  exact excuses.checkOne_eq_filter earlier definition

end Excuses

theorem Excuses.checkFrom_eq (excuses : Excuses (fun _ => false) rules other names others)
    (earlier : List String) (definitions : List Definition) :
    checkFrom other others earlier definitions = checkFrom rules names earlier definitions := by
  rw [excuses.checkFrom_eq_filter]
  simp only [isUnresolvedAmong_none, Bool.not_false, List.filter_true]

end ShaderDefs.Lint
