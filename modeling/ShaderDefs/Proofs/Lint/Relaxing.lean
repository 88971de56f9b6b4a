import Mathlib.Data.List.Basic
import ShaderDefs.Proofs.Lint.Findings

/-! Rules that ask for less. With more built-in functions, or without a warning about unknown names,
some findings go and no others come. -/

set_option autoImplicit false

namespace ShaderDefs.Lint

structure Rules.RelaxesTo (rules other : Rules) : Prop where
  builtins : rules.extraBuiltins ⊆ other.extraBuiltins
  prefixes : other.builtinPrefixes = rules.builtinPrefixes
  outputs : other.outputNames = rules.outputNames
  unresolved : other.warnUnresolved → rules.warnUnresolved

section RelaxesTo

variable {rules other : Rules} (relaxes : rules.RelaxesTo other)
variable {names : List String} {definition : Definition}
include relaxes

theorem isBuiltin_of_relaxesTo {name : String} (known : rules.isBuiltin name) :
    other.isBuiltin name := by
  rw [Rules.isBuiltin_iff] at known ⊢
  rw [relaxes.prefixes]
  exact known.imp_right (Or.imp_left (relaxes.builtins ·))

theorem isResolved_of_relaxesTo {callee : String} (known : isResolved rules names definition callee) :
    isResolved other names definition callee := by
  simp only [isResolved, Bool.or_eq_true] at known ⊢
  exact known.imp_right (isBuiltin_of_relaxesTo relaxes)

theorem checkCallees_sublist :
    (checkCallees other names definition).Sublist (checkCallees rules names definition) := by
  by_cases asked : other.warnUnresolved
  · rw [checkCallees, checkCallees, if_pos asked, if_pos (relaxes.unresolved asked)]
    apply List.Sublist.map
    apply List.monotone_filter_right
    intro callee unknown
    rw [Bool.not_eq_true'] at unknown ⊢
    rw [Bool.eq_false_iff] at unknown ⊢
    exact fun known => unknown (isResolved_of_relaxesTo relaxes known)
  · rw [checkCallees, if_neg asked]
    exact List.nil_sublist _

theorem checkOne_sublist {earlier : List String} :
    (checkOne other names earlier definition).Sublist (checkOne rules names earlier definition) := by
  have outputs : checkOutput other definition = checkOutput rules definition := by
    rw [checkOutput, checkOutput, Rules.isOutput, Rules.isOutput, relaxes.outputs]
  rw [checkOne, checkOne, outputs]
  exact (List.Sublist.refl _).append (checkCallees_sublist relaxes)

theorem checkFrom_sublist {earlier : List String} {definitions : List Definition} :
    (checkFrom other names earlier definitions).Sublist
      (checkFrom rules names earlier definitions) := by
  induction definitions generalizing earlier with
  | nil => exact .refl []
  | cons definition rest ih => exact (checkOne_sublist relaxes).append ih

theorem check_sublist (definitions : List Definition) :
    (check other definitions).Sublist (check rules definitions) :=
  checkFrom_sublist relaxes

end RelaxesTo

end ShaderDefs.Lint
