import Mathlib.Data.List.Nodup
import ShaderDefs.Proofs.Definition.Body
import ShaderDefs.Proofs.Definition.Recovery
import ShaderDefs.Proofs.Infix.Application
import ShaderDefs.Proofs.Lint.Findings

/-! Unknown callees, as they are reported. The tokens of a line say which of its names are reported,
and in which order. -/

set_option autoImplicit false

namespace ShaderDefs

open Definition (statements readLine)

namespace Infix

variable {tokens : List Token}

theorem namesApplied_eq_zipIdx (front segment after : List Token)
    (whole : tokens = front ++ segment ++ after) :
    namesApplied front.reverse after segment =
      ((segment.zipIdx front.length).filter fun placed =>
        placed.1.kind = .identifier ∧
          headsRun (tokens.take placed.2).reverse (tokens.drop (placed.2 + 1))).map (·.1.text) := by
  induction segment generalizing front with
  | nil => rfl
  | cons token rest ih =>
    have next := ih (front ++ [token]) (by simp [whole])
    have before : tokens.take front.length = front := by simp [whole]
    have behind : tokens.drop (front.length + 1) = rest ++ after := by
      rw [whole, List.append_assoc, ← List.drop_drop, List.drop_left]
      rfl
    rw [List.reverse_concat, List.length_append, List.length_singleton] at next
    rw [namesApplied, next, List.zipIdx_cons, List.filter_cons, before, behind]
    by_cases applied : token.kind = .identifier ∧ headsRun front.reverse (rest ++ after)
    · rw [if_pos applied, if_pos (decide_eq_true applied)]
      rfl
    · rw [if_neg applied, if_neg fun holds => applied (of_decide_eq_true holds)]
      rfl

end Infix

namespace Token

/-- The token at the index is a name that the body of the line applies. It stands behind an equals sign
and, parentheses around it alone apart, it is the first atom of a run of at least two. -/
def IsApplied (line : List Token) (token : Token) (index : Nat) : Prop :=
  token.kind = .identifier ∧ (∃ equals ∈ line.take index, equals.kind = .equals) ∧
    ∃ pairs, Infix.HeadsRun pairs (line.take index).reverse (line.drop (index + 1))

instance (line : List Token) (token : Token) (index : Nat) : Decidable (IsApplied line token index) :=
  inferInstanceAs (Decidable (_ ∧ _ ∧ _))

theorem not_isApplied_of_le {header rest : List Token} {token : Token} {index : Nat}
    (names : ∀ name ∈ header, name.kind = .identifier) (low : index ≤ header.length) :
    ¬IsApplied (header ++ rest) token index := by
  rintro ⟨_, ⟨equals, inFront, equates⟩, _⟩
  rw [List.take_append_of_le_length low] at inFront
  simp [names equals (List.mem_of_mem_take inFront)] at equates

theorem isApplied_iff {header rest : List Token} {equals token : Token} {index : Nat}
    (equates : equals.kind = .equals) (low : (header ++ [equals]).length ≤ index) :
    IsApplied (header ++ [equals] ++ rest) token index ↔
      token.kind = .identifier ∧
        Infix.headsRun ((header ++ [equals] ++ rest).take index).reverse
          ((header ++ [equals] ++ rest).drop (index + 1)) := by
  have inFront : equals ∈ (header ++ [equals] ++ rest).take index := by
    refine List.take_subset_take_left _ low ?_
    rw [List.take_left]
    exact List.mem_concat_self
  rw [IsApplied, Infix.headsRun_iff]
  exact and_congr_right fun _ => and_iff_right ⟨equals, inFront, equates⟩

end Token

namespace Definition

variable {line header tokens : List Token} {equals finish : Token}

theorem map_filter_isApplied (cut : line = header ++ [equals] ++ tokens ++ [finish])
    (names : ∀ token ∈ header, token.kind = .identifier) (equates : equals.kind = .equals)
    (closes : finish.kind = .lineEnd) :
    (line.zipIdx.filter fun placed => Token.IsApplied line placed.1 placed.2).map (·.1.text) =
      Infix.namesApplied (equals :: header.reverse) [finish] tokens := by
  have numbered : line.zipIdx = (header ++ [equals]).zipIdx ++
      tokens.zipIdx (header ++ [equals]).length ++
      [finish].zipIdx (header ++ [equals] ++ tokens).length := by
    rw [cut, List.zipIdx_append, List.zipIdx_append, Nat.zero_add, Nat.zero_add]
  have inFront : ((header ++ [equals]).zipIdx.filter fun placed =>
      Token.IsApplied line placed.1 placed.2) = [] := by
    refine List.filter_eq_nil_iff.2 fun placed member => ?_
    have low := (List.mem_zipIdx member).2.1
    rw [Nat.zero_add, List.length_append, List.length_singleton] at low
    rw [decide_eq_true_iff, cut, List.append_assoc, List.append_assoc]
    exact Token.not_isApplied_of_le names (Nat.le_of_lt_succ low)
  have last : (([finish].zipIdx (header ++ [equals] ++ tokens).length).filter fun placed =>
      Token.IsApplied line placed.1 placed.2) = [] := by
    refine List.filter_eq_nil_iff.2 fun placed member holds => ?_
    obtain ⟨kind, _⟩ := of_decide_eq_true holds
    cases List.mem_singleton.1 member
    simp [closes] at kind
  have body := Infix.namesApplied_eq_zipIdx (header ++ [equals]) tokens [finish] cut
  rw [List.reverse_concat] at body
  rw [numbered, List.filter_append, List.filter_append, inFront, last, List.nil_append,
    List.append_nil, body]
  refine congrArg _ (List.filter_congr fun placed member => decide_eq_decide.2 ?_)
  rw [cut, List.append_assoc _ tokens]
  exact Token.isApplied_iff equates (List.mem_zipIdx member).1

/-- The names that the body of a definition applies are those that the tokens of its line say are
applied. -/
theorem callees_eq {source : String} {line : List Token}
    (statement : line ∈ statements (Token.ofText source)) {definition : Definition}
    (read : readLine line = .ok definition) :
    Lint.callees definition =
      (line.zipIdx.filter fun placed => Token.IsApplied line placed.1 placed.2).map (·.1.text) := by
  obtain ⟨tokens, rest, nesting, same, ends, declares, _⟩ :=
    declares_of_readLine (spelled_of_mem statement) read
  obtain ⟨body, finish, shape, _, inner, closes⟩ := isStatement_of_mem statement
  have isEnd : finish.kind.isEnd := (Token.Kind.isEnd_iff _).2 (.inl closes)
  have whole : tokens = body := eq_of_append_eq (same.symm.trans shape) isEnd
    (fun token member => (declares.kind_of_mem member).1) inner ends
  subst whole
  cases declares with
  | @line name equals parameters tokens expr nesting named parametersNamed equates derives =>
    have cut : line = name :: parameters ++ [equals] ++ tokens ++ [finish] := by simp [shape]
    have names : ∀ token ∈ name :: parameters, token.kind = .identifier :=
      List.forall_mem_cons.2 ⟨named, parametersNamed⟩
    have loose : Infix.startsAtom [finish] = false := by
      simp [Infix.startsAtom, closes, Token.Kind.startsAtom]
    have opens : ∃ token ∈ (equals :: (name :: parameters).reverse).head?,
        token.kind.opensOperand := ⟨equals, rfl, by simp [equates, Token.Kind.opensOperand]⟩
    have idle : Infix.headsRun (equals :: (name :: parameters).reverse) [finish] = false :=
      Infix.headsRun_eq_false_of_startsAtom loose (.inl (by simp [equates]))
    rw [map_filter_isApplied cut names equates closes, derives.namesApplied_eq _ _ ⟨opens, loose⟩,
      Infix.namesBetween_of_eq_false idle]
    rfl

theorem flatMap_ofResults {Item : Type} (results : List (Except Fault Definition))
    (items : Definition → List Item) :
    (Recovered.ofResults results).definitions.flatMap items =
      results.flatMap fun
        | .ok definition => items definition
        | .error _ => [] := by
  simp only [Recovered.ofResults]
  induction results with
  | nil => rfl
  | cons result results ih =>
    cases result with
    | error fault => exact ih
    | ok definition => exact congrArg (items definition ++ ·) ih

end Definition

def Diagnostic.isUnresolvedCallee : Diagnostic → Bool
  | .fault _ => false
  | .finding doubt => doubt.issue.isUnresolvedCallee

namespace Report

variable {rules : Lint.Rules} {source : String} {line : List Token} {definition : Definition}

/-- The names on a line that are applied there but not known, from left to right, as findings on the
definition of the line. -/
def unknownCallees (rules : Lint.Rules) (names : List String) (line : List Token)
    (definition : Definition) : List Diagnostic :=
  (line.zipIdx.filter fun placed => Token.IsApplied line placed.1 placed.2 ∧
      Lint.IsUnknown rules names definition placed.1.text).map fun placed =>
    .finding ⟨.unresolvedCallee placed.1.text, definition.name, definition.position⟩

theorem position_of_mem_unknownCallees {names : List String} {diagnostic : Diagnostic}
    (member : diagnostic ∈ unknownCallees rules names line definition) :
    diagnostic.position = definition.position := by
  obtain ⟨placed, _, rfl⟩ := List.mem_map.1 member
  rfl

theorem map_checkCallees (warns : rules.warnUnresolved) (names : List String)
    (statement : line ∈ statements (Token.ofText source)) (read : readLine line = .ok definition) :
    (Lint.checkCallees rules names definition).map Diagnostic.finding =
      unknownCallees rules names line definition := by
  rw [Lint.checkCallees, if_pos warns, Definition.callees_eq statement read, List.filter_map,
    List.filter_filter, List.map_map, List.map_map, unknownCallees]
  refine congrArg _ (List.filter_congr fun placed _ => ?_)
  rw [Function.comp_apply, Lint.not_isResolved, Bool.and_comm, Bool.decide_and]

theorem filter_isUnresolvedCallee (rules : Lint.Rules) (source : String) :
    let definitions := (Definition.recover (Token.ofText source)).definitions
    (Stage.validator.report rules source).diagnostics.filter (·.isUnresolvedCallee) =
      definitions.flatMap fun definition =>
        (Lint.checkCallees rules (definitions.map (·.name)) definition).map Diagnostic.finding := by
  intro definitions
  have faults : ((Definition.recover (Token.ofText source)).faults.map Diagnostic.fault).filter
      (·.isUnresolvedCallee) = [] := by
    simp [List.filter_map, Function.comp_def, Diagnostic.isUnresolvedCallee]
  have findings : ((Lint.check rules definitions).map Diagnostic.finding).filter
      (·.isUnresolvedCallee) =
      ((Lint.check rules definitions).filter (·.issue.isUnresolvedCallee)).map .finding :=
    List.filter_map
  simp only [Stage.report, signatures, List.filter_append, faults, List.nil_append]
  rw [Validation.ofDefinitions, findings, Lint.check, Lint.filter_checkFrom, List.map_flatMap]

/-- In a short text nothing but what the line of a definition gives stands where the definition
stands. -/
theorem filter_position_flatMap (given : List Token → Definition → List Diagnostic)
    (own : ∀ line definition, ∀ diagnostic ∈ given line definition,
      diagnostic.position = definition.position)
    (short : source.length < UInt32.size - 1) (statement : line ∈ statements (Token.ofText source))
    (read : readLine line = .ok definition) :
    ((statements (Token.ofText source)).flatMap fun line =>
      match readLine line with
      | .ok definition => given line definition
      | .error _ => []).filter (·.position = definition.position) = given line definition := by
  rw [Definition.statements_eq_map] at statement
  obtain ⟨numbered, member, rfl⟩ := List.mem_map.1 statement
  have place := (Definition.line_of_readLine member).1 definition read
  rw [Definition.statements_eq_map, List.flatMap_map]
  refine (Definition.filter_flatMap_numberedStatements short member ?_ ?_).trans ?_
  · intro diagnostic inLine
    rw [read] at inLine
    exact decide_eq_true (own _ _ _ inLine)
  · intro other inLines diagnostic givenThere same
    cases readOther : readLine (Token.ofLine other.2 other.1) with
    | error fault => simp [readOther] at givenThere
    | ok elsewhere =>
      rw [readOther] at givenThere
      -- What stands at the place of the definition stands on its line.
      rw [← place, ← of_decide_eq_true same, own _ _ _ givenThere]
      exact ((Definition.line_of_readLine inLines).1 elsewhere readOther).symm
  · rw [read]

/-- Unknown callees can be read off the tokens. If unknown callees are reported at all, the report has
line by line, one each and from left to right, the names that are applied on the line but not known.
In fewer than 2 ^ 32 - 1 characters these are just what is reported where the definition of the line
stands. -/
theorem unresolvedCallees_eq_applied_and_unknown (warns : rules.warnUnresolved) (source : String) :
    let tokens := Token.ofText source
    let names := (Definition.recover tokens).definitions.map (·.name)
    let reported :=
      (Stage.validator.report rules source).diagnostics.filter (·.isUnresolvedCallee)
    (reported = (statements tokens).flatMap fun line =>
      match readLine line with
      | .ok definition => unknownCallees rules names line definition
      | .error _ => []) ∧
    (source.length < UInt32.size - 1 →
      ∀ line ∈ statements tokens, ∀ definition, readLine line = .ok definition →
        reported.filter (·.position = definition.position) =
          unknownCallees rules names line definition) := by
  intro tokens names reported
  have byLine : reported = (statements tokens).flatMap fun line =>
      match readLine line with
      | .ok definition => unknownCallees rules names line definition
      | .error _ => [] := by
    refine (filter_isUnresolvedCallee rules source).trans ?_
    rw [Definition.recover, Definition.flatMap_ofResults, List.flatMap_map]
    refine List.flatMap_congr fun line statement => ?_
    cases read : readLine line with
    | error fault => rfl
    | ok definition => exact map_checkCallees warns names statement read
  refine ⟨byLine, fun short line statement definition read => ?_⟩
  rw [byLine]
  exact filter_position_flatMap (unknownCallees rules names)
    (fun _ _ _ member => position_of_mem_unknownCallees member) short statement read

/-- Parentheses around a name alone do not matter, what is applied to is not applied itself, and the
second line is refused. -/
theorem unresolvedCallees_of_three_lines :
    let source := "f x = ((g)) (x h) * (f 2) + x 1\nh = (g 1\nk y = cos (u y) + y ((h) 2)"
    let unknown (callee name : String) (line : UInt32) : Diagnostic :=
      .finding ⟨.unresolvedCallee callee, name, ⟨line, 1⟩⟩
    Lint.Rules.standard.warnUnresolved ∧ source.length < UInt32.size - 1 ∧
      (Stage.validator.report .standard source).diagnostics.filter (·.isUnresolvedCallee) =
        [unknown "g" "f" 1, unknown "u" "k" 3, unknown "h" "k" 3] ∧
      ∃ line ∈ statements (Token.ofText source), ∃ definition,
        readLine line = .ok definition ∧ definition.name = "k" ∧
        unknownCallees .standard ["f", "k"] line definition =
          [unknown "u" "k" 3, unknown "h" "k" 3] := by
  intro source unknown
  have short : source.length < UInt32.size - 1 := by decide +kernel
  obtain ⟨byLine, byPlace⟩ :=
    @unresolvedCallees_eq_applied_and_unknown .standard rfl source
  have names : (Definition.recover (Token.ofText source)).definitions.map (·.name) = ["f", "k"] := by
    decide +kernel
  have reported : (Stage.validator.report .standard source).diagnostics.filter
      (·.isUnresolvedCallee) = [unknown "g" "f" 1, unknown "u" "k" 3, unknown "h" "k" 3] := by
    rw [byLine]
    decide +kernel
  have last : ∃ definition, (Definition.recover (Token.ofText source)).definitions.getLast? =
      some definition ∧ definition.name = "k" ∧ definition.position = ⟨3, 1⟩ :=
    ⟨⟨"k", ["y"], [⟨3, 3⟩], .binary .add
      (.application (.identifier "cos") [.application (.identifier "u") [.identifier "y"]])
      (.application (.identifier "y") [.application (.identifier "h") [.literal 2]]), ⟨3, 1⟩⟩,
      by decide +kernel, rfl, rfl⟩
  obtain ⟨definition, found, name, place⟩ := last
  obtain ⟨line, statement, read⟩ := Definition.mem_recover_iff.1 (List.mem_of_getLast? found)
  have onThird := byPlace short line statement definition read
  rw [reported, names, place] at onThird
  exact ⟨rfl, short, reported, line, statement, definition, read, name, onThird.symm⟩

end Report

end ShaderDefs
