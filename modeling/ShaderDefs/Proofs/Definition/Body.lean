import ShaderDefs.Proofs.Definition.Declaration
import ShaderDefs.Proofs.Expr.WellFormed

/-! The bodies of the definitions in a source text. They are well formed trees within the depth
limit. -/

set_option autoImplicit false

namespace ShaderDefs

theorem Infix.Derives.wellFormed {level : Level} {tokens : List Token} {expr : Expr} {nesting : Nat}
    (derives : Derives level tokens expr nesting) (spelled : ∀ token ∈ tokens, token.Spelled) :
    expr.WellFormed := by
  induction derives with
  | @name token kind =>
    have : Text.IsName token.text := by simpa [Token.Spelled, kind] using spelled token
    exact .identifier this
  | integer => exact .literal _
  | parentheses _ _ _ ih => exact ih fun token member => spelled token (by simp [member])
  | apply _ _ headIh nextIh =>
    obtain ⟨inHead, inNext⟩ := List.forall_mem_append.1 spelled
    exact .application (List.cons_ne_nil _ _) (headIh inHead) (by simpa using nextIh inNext)
  | extend _ _ headIh nextIh =>
    obtain ⟨inHead, inNext⟩ := List.forall_mem_append.1 spelled
    -- The run before the last argument is an application with arguments of its own.
    cases headIh inHead with
    | application some calleeFormed argumentsFormed =>
      refine .application (List.append_ne_nil_of_left_ne_nil some _) calleeFormed ?_
      rw [List.forall_mem_append]
      exact ⟨argumentsFormed, by simpa using nextIh inNext⟩
  | lone _ ih => exact ih spelled
  | run _ ih => exact ih spelled
  | factor _ ih => exact ih spelled
  | term _ ih => exact ih spelled
  | multiply _ _ _ _ headIh nextIh =>
    obtain ⟨inHead, inNext⟩ := List.forall_mem_append.1 spelled
    exact .binary (headIh inHead) (nextIh (List.forall_mem_cons.1 inNext).2)
  | add _ _ _ _ headIh nextIh =>
    obtain ⟨inHead, inNext⟩ := List.forall_mem_append.1 spelled
    exact .binary (headIh inHead) (nextIh (List.forall_mem_cons.1 inNext).2)

namespace Definition

theorem mem_recover_iff {tokens : List Token} {definition : Definition} :
    definition ∈ (recover tokens).definitions ↔
      ∃ line ∈ statements tokens, readLine line = .ok definition := by
  simp only [recover, Recovered.ofResults, List.mem_filterMap, List.mem_map]
  constructor
  · rintro ⟨_, ⟨line, member, rfl⟩, same⟩
    split at same
    next found =>
      cases same
      exact ⟨line, member, found⟩
    next => cases same
  · rintro ⟨line, member, read⟩
    exact ⟨_, ⟨line, member, rfl⟩, by rw [read]⟩

theorem mem_faults_recover_iff {tokens : List Token} {fault : Fault} :
    fault ∈ (recover tokens).faults ↔ ∃ line ∈ statements tokens, readLine line = .error fault := by
  simp only [recover, Recovered.ofResults, List.mem_filterMap, List.mem_map]
  constructor
  · rintro ⟨_, ⟨line, member, rfl⟩, same⟩
    split at same
    next => cases same
    next found =>
      cases same
      exact ⟨line, member, found⟩
  · rintro ⟨line, member, read⟩
    exact ⟨_, ⟨line, member, rfl⟩, by rw [read]⟩

theorem body_of_mem_recover {source : String} {definition : Definition}
    (member : definition ∈ (recover (Token.ofText source)).definitions) :
    definition.body.WellFormed ∧ definition.body.depth ≤ maxDepth := by
  obtain ⟨line, statement, read⟩ := mem_recover_iff.1 member
  have spelled := spelled_of_mem statement
  obtain ⟨tokens, rest, nesting, same, _, declares, _, shallow⟩ :=
    declares_of_readLine spelled read
  have inTokens : ∀ token ∈ tokens, token.Spelled :=
    fun token member => spelled token (by simp [same, member])
  cases declares with
  | line _ _ _ derives =>
    refine ⟨derives.wellFormed fun token member => inTokens token ?_, shallow⟩
    simp [member]

end Definition

end ShaderDefs
